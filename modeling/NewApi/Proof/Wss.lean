import NewApi.Proof.Settlement
import NewApi.Spec.Wss
import Mathlib.Algebra.Order.BigOperators.Group.List

/-!
# What a realtime conversation charges

Each turn is charged to the wallet on its own (`chargeTurns_takes`), outside the hold of the
billing session, and the settlement at the end charges the usage of the whole conversation
once more. So the turns are charged twice.
-/

namespace NewApi

open BillingSession

variable {cfg : Config} {env : Env} {st st' : Store} {s s' : BillingSession}
  {info : RelayInfo} {rs : RatioSetting} {rinfo : RealtimeInfo} {q x : ℤ}

theorem roundHalfAway_nonneg {d : ℚ} (hd : 0 ≤ d) : 0 ≤ roundHalfAway d := by
  rw [roundHalfAway, if_pos hd]
  exact Int.floor_nonneg.2 (by linarith)

theorem saturateQuota_nonneg {v : ℤ} (hv : 0 ≤ v) : 0 ≤ (saturateQuota v).1 := by
  unfold saturateQuota
  split_ifs
  · exact (by decide : 0 ≤ maxQuota)
  · omega
  · exact hv

theorem calculateAudioQuota_nonneg {qi : QuotaInfo} (h : qi.usePrice = false) : 0 ≤ (calculateAudioQuota rs qi).1 := by
  have hd : 0 ≤ (if qi.groupRatio * qi.modelRatio ≠ 0 ∧ qi.baseQuota rs * (qi.groupRatio * qi.modelRatio) ≤ 0 then 1
      else qi.baseQuota rs * (qi.groupRatio * qi.modelRatio)) := by
    split_ifs with hne
    · norm_num
    -- a ratio of zero makes it zero; with any other what is not positive was replaced
    by_cases hr : qi.groupRatio * qi.modelRatio = 0
    · rw [hr, mul_zero]
    · exact (not_le.1 fun hle => hne ⟨hr, hle⟩).le
  rw [calculateAudioQuota, if_neg (by simp [h])]
  exact saturateQuota_nonneg (roundHalfAway_nonneg hd)

theorem turnQuota_nonneg (h : rinfo.usePrice = false) (u : RealtimeUsage) : 0 ≤ turnQuota rs rinfo u :=
  calculateAudioQuota_nonneg h

theorem finalQuota_nonneg (h : rinfo.priceUsePrice = false) (u : RealtimeUsage) : 0 ≤ finalQuota rs rinfo u := by
  unfold finalQuota
  split
  · exact le_refl 0
  · exact calculateAudioQuota_nonneg h

theorem postConsumeQuota_takes (hsrc : info.billingSource ≠ some .subscription)
    (h : postConsumeQuota cfg env info x st = (st', none)) :
    Takes st st' (Pi.single .wallet x + info.tokenPart x) := by
  unfold postConsumeQuota at h
  rw [if_neg hsrc] at h
  dsimp only at h
  split at h
  · cases h
  rename_i st₁ hfund
  have hwallet : Takes st st₁ (Pi.single .wallet x) := by
    split at hfund
    · exact decreaseUserQuota_takes hfund
    · simpa using increaseUserQuota_takes hfund
  refine hwallet.trans ?_
  unfold RelayInfo.tokenPart
  split at h
  · cases h
    rw [if_pos ‹_›]
    exact Takes.refl st'
  rw [if_neg ‹_›]
  unfold attempt at h
  split at h
  · rename_i st₂ htok
    cases h
    split at htok
    · exact decreaseTokenQuota_takes htok
    · simpa using increaseTokenQuota_takes htok
  · cases h

theorem preWssConsumeQuota_takes {reads : WssReads} {u : RealtimeUsage}
    (hsrc : info.billingSource ≠ some .subscription) (hprice : rinfo.usePrice = false)
    (h : preWssConsumeQuota cfg env reads rs rinfo info u st = (st', none)) :
    Takes st st' (Pi.single .wallet (turnQuota rs rinfo u) + info.tokenPart (turnQuota rs rinfo u)) := by
  unfold preWssConsumeQuota at h
  rw [if_neg (by simp [hprice])] at h
  split at h
  · cases h
  dsimp only at h
  split_ifs at h
  · cases h
  · cases h
  · exact postConsumeQuota_takes hsrc h

theorem tokenPart_wallet (info : RelayInfo) (x : ℤ) : info.tokenPart x .wallet = 0 :=
  tokenPart_apply info x (by decide) (by decide)

def turnsQuota (rs : RatioSetting) (rinfo : RealtimeInfo) (turns : List Turn) : ℤ :=
  (turns.map fun turn => turnQuota rs rinfo turn.usage).sum

theorem turnsQuota_nonneg (h : rinfo.usePrice = false) (turns : List Turn) : 0 ≤ turnsQuota rs rinfo turns := by
  refine List.sum_nonneg fun v hv => ?_
  obtain ⟨turn, -, rfl⟩ := List.mem_map.1 hv
  exact turnQuota_nonneg h turn.usage

/-- **The turns take the sum of their quotas.** -/
theorem chargeTurns_takes {turns : List Turn} (hsrc : info.billingSource ≠ some .subscription)
    (hprice : rinfo.usePrice = false) (h : chargeTurns cfg rs rinfo info turns st = some st') :
    Takes st st' (Pi.single .wallet (turnsQuota rs rinfo turns) + info.tokenPart (turnsQuota rs rinfo turns)) := by
  induction turns generalizing st with
  | nil =>
    cases h
    simpa [turnsQuota] using Takes.refl st'
  | cons turn turns ih =>
    unfold chargeTurns at h
    split at h
    · rename_i st₁ hturn
      have hsum : turnsQuota rs rinfo (turn :: turns) =
          turnQuota rs rinfo turn.usage + turnsQuota rs rinfo turns := List.sum_cons
      -- this turn's charge, then those of the rest
      have := (preWssConsumeQuota_takes hsrc hprice hturn).trans (ih h)
      rw [hsum, Pi.single_add, tokenPart_add]
      rwa [add_add_add_comm] at this
    · cases h

theorem eq_wallet_of_source {f : Funding} (h : f.source = .wallet) : ∃ c, f = .wallet c := by
  cases f with
  | wallet c => exact ⟨c, rfl⟩
  | _ => cases h

theorem fundingSettle_wallet_ok (cfg : Config) (δ c : ℤ) (st : Store) (henv : env.Succeeds) :
    ∃ st', (Funding.wallet c).settle cfg env δ st = .ok st' := by
  unfold Funding.settle
  rw [henv.funding]
  split
  · exact ⟨st, rfl⟩
  dsimp only
  split
  · exact decreaseUserQuota_ok cfg st (by omega)
  · exact increaseUserQuota_ok cfg st (by omega)

theorem settle_wallet_err {a : ℤ} {err : Err} (henv : env.Succeeds)
    (hsrc : s.funding.source = .wallet) (h : s.settle cfg env a st = (s', st', some err)) :
    s.overLimit a = true := by
  obtain ⟨c, hf⟩ := eq_wallet_of_source hsrc
  rcases (settle_err henv h).2.2 with hover | ⟨e, hfund⟩
  · exact hover
  obtain ⟨st₁, hok⟩ := fundingSettle_wallet_ok cfg (a - s.preConsumedQuota) c st henv
  rw [hf, hok] at hfund
  cases hfund

theorem settle_overLimit {a : ℤ} (hs : s.settled = false) (h : s.overLimit a = true) :
    (s.settle cfg env a st).2.1 = st := by
  unfold settle
  rw [hs, if_neg (by decide)]
  rw [if_pos h]

theorem settle_wallet_level {a c : ℤ} (henv : env.Succeeds) (ho : Open s st)
    (hf : s.funding = .wallet c) (hlim : ¬ s.overLimit a = true) (ha : 0 ≤ a) :
    (s.settle cfg env a st).2.1.walletLevel = st.walletLevel - (a - s.preConsumedQuota) := by
  rcases hset : s.settle cfg env a st with ⟨s', st', _ | err⟩
  · have hlevel := congrFun (settle_refines ho ha hset) .wallet
    have hcost : ∀ y, s.cost y .wallet = y := by
      intro y
      simp [cost, poolCost, hf, Funding.account, tokenPart_wallet]
    simpa [Ledger.Hold.settle, toHold, hcost, Store.level] using hlevel
  · exact absurd (settle_wallet_err henv (by rw [hf]; rfl) hset) hlim

theorem preConsume_limit {available : ℤ} {restricted : Bool} {src : BillingSource} (hq : 0 ≤ q)
    (h : (newSession info q src available restricted).preConsume cfg env q st = (.ok s, st')) :
    s.hasModelBalanceLimit = restricted ∧ s.modelBalanceAvailable = available := by
  obtain ⟨st₁, f, -, -, rfl⟩ := preConsume_ok hq rfl h
  obtain ⟨info', hsync, -⟩ := syncRelayInfo_eq ((newSession info q src available restricted).preConsumed f
      ((newSession info q src available restricted).effectiveQuota cfg env q st)
      ((newSession info q src available restricted).effectiveQuota cfg env q st)
      ((newSession info q src available restricted).shouldTrust cfg env st))
  rw [hsync]
  exact ⟨rfl, rfl⟩

/-- What stays charged for the hold: the final quota, or the hold when the final quota is over the limit of the model.
-/
def settledQuota (restricted : Bool) (available held final : ℤ) : ℤ :=
  if restricted = true ∧ available < final then held else final

def summedUsage (turns : List Turn) : RealtimeUsage := turns.foldl (fun total turn => addUsage total turn.usage) {}

/-- A conversation on the wallet, from the pre-consume of `q` on `st` over its turns to its
settlement, which leaves `st'`. -/
def Conversation (cfg : Config) (env : Env) (rs : RatioSetting) (rinfo : RealtimeInfo)
    (s₀ : BillingSession) (q : ℤ) (turns : List Turn) (st st' : Store) : Prop :=
  ∃ s st₁ st₂ env', s₀.preConsume cfg env q st = (.ok s, st₁) ∧
    chargeTurns cfg rs rinfo s.relayInfo turns st₁ = some st₂ ∧ env'.Succeeds ∧
    (postWssConsumeQuota cfg env' rs rinfo (summedUsage turns) s st₂).2 = st'

/-- **What a conversation takes from the wallet**: the quota of every turn, and what stays
charged for the hold. -/
theorem conversation_charge {available : ℤ} {restricted : Bool} {turns : List Turn}
    (hq : 0 ≤ q) (hturn : rinfo.usePrice = false) (hprice : rinfo.priceUsePrice = false)
    (h : Conversation cfg env rs rinfo (newSession info q .wallet available restricted) q turns st st') :
    st.walletLevel - st'.walletLevel = turnsQuota rs rinfo turns + settledQuota restricted available
        ((newSession info q .wallet available restricted).effectiveQuota cfg env q st)
        (finalQuota rs rinfo (summedUsage turns)) := by
  obtain ⟨s1, st₁, st₂, env', hpre, hturns, henv, rfl⟩ := h
  set u := summedUsage turns
  have hop := preConsume_opens hq (by intro h; cases h) hpre
  obtain ⟨hlim, havail⟩ := preConsume_limit hq hpre
  obtain ⟨c, hf⟩ := eq_wallet_of_source hop.source
  have hc : c = s1.preConsumedQuota := by
    have hpool := hop.isOpen.pool
    rwa [PoolOpen, hf] at hpool
  have hover : s1.overLimit (finalQuota rs rinfo u) = true ↔ restricted = true ∧ available < finalQuota rs rinfo u := by
    simp [overLimit, hop.source, hlim, havail]
  have htakes : Takes st₁ st₂ _ := chargeTurns_takes (by rw [hop.billingSource]; decide) hturn hturns
  -- the wallet gave the hold before the turns, and the turns took their quotas besides
  have hheld : s1.held .wallet = c := by simp [held, owed, hf, Funding.account, tokenPart_wallet]
  have hbefore : st₁.walletLevel + c = st.walletLevel := by
    have htotal := hop.total.self
    rw [hf] at htotal
    rw [← hheld]
    exact htotal
  have hturned : st₂.walletLevel = st₁.walletLevel - turnsQuota rs rinfo turns := by
    have := congrFun htakes.level .wallet
    simpa [tokenPart_wallet, Store.level] using this
  show st.walletLevel - (s1.settle cfg env' (finalQuota rs rinfo u) st₂).2.1.walletLevel = _
  unfold settledQuota
  split_ifs with hl
  · -- the settlement is refused, and the hold stays charged
    rw [settle_overLimit hop.isOpen.settled (hover.2 hl), ← hop.recorded]
    omega
  -- the turns have not touched the session, and a wallet's invariant does not look at the rows
  have hopen : Open s1 st₂ := { hop.isOpen with pool := by rw [PoolOpen, hf]; exact hc }
  rw [settle_wallet_level henv hopen hf (fun h => hl (hover.1 h)) (finalQuota_nonneg hprice u)]
  omega

/-- From `st` to `st'` the wallet gave the quota of the summed usage, up to one unit a turn. -/
def ChargedOnce (rs : RatioSetting) (rinfo : RealtimeInfo) (turns : List Turn) (st st' : Store) : Prop :=
  |st.walletLevel - st'.walletLevel - usageQuota rs rinfo (summedUsage turns)| ≤ turns.length

/-- **A conversation is charged once** only when the quotas of its turns together are at most one unit a turn, or the
settlement does not charge the usage. -/
theorem conversation_charged_once_iff {available : ℤ} {restricted : Bool} {turns : List Turn}
    (hq : 0 ≤ q) (hturn : rinfo.usePrice = false) (hprice : rinfo.priceUsePrice = false)
    (h : Conversation cfg env rs rinfo (newSession info q .wallet available restricted) q turns st st') :
    ChargedOnce rs rinfo turns st st' ↔
      if restricted = true ∧ available < finalQuota rs rinfo (summedUsage turns) then
        |turnsQuota rs rinfo turns +
          (newSession info q .wallet available restricted).effectiveQuota cfg env q st -
          usageQuota rs rinfo (summedUsage turns)| ≤ turns.length
      else if (summedUsage turns).totalTokens = 0 then
        |turnsQuota rs rinfo turns - usageQuota rs rinfo (summedUsage turns)| ≤ turns.length
      else turnsQuota rs rinfo turns ≤ turns.length := by
  have hnonneg : 0 ≤ turnsQuota rs rinfo turns := turnsQuota_nonneg hturn turns
  rw [ChargedOnce, conversation_charge hq hturn hprice h, settledQuota]
  split
  · rfl
  unfold finalQuota
  split
  · rw [add_zero]
  · rw [add_sub_cancel_right, abs_of_nonneg hnonneg]

def flatRatio (r : ℚ) : RatioSetting :=
  ⟨fun _ => .ratio, fun _ => 1, fun _ => 1, fun _ => 1, fun _ => r, fun _ => 1, fun _ _ => none, 500000, 3600⟩

def sampleRealtime (r : ℚ) : RealtimeInfo := ⟨"model", "model", "default", "default", none, false, r, 1, false⟩

def sampleTurn : Turn where
  env := calmEnv
  reads := ⟨1000, 1000, false⟩
  usage := { totalTokens := 10, inputTokens := 10, inputTokenDetails := { textTokens := 10 } }

theorem sampleConversation {r : ℚ} (h : ∀ s st₁,
      (newSession sampleInfo 5 .wallet 1000 false).preConsume sampleCfg calmEnv 5 sampleStore = (.ok s, st₁) →
      (chargeTurns sampleCfg (flatRatio r) (sampleRealtime r) s.relayInfo [sampleTurn] st₁).isSome) :
    ∃ st', Conversation sampleCfg calmEnv (flatRatio r) (sampleRealtime r)
      (newSession sampleInfo 5 .wallet 1000 false) 5 [sampleTurn] sampleStore st' := by
  obtain ⟨s, st₁, hpre⟩ : ∃ s st₁,
      (newSession sampleInfo 5 .wallet 1000 false).preConsume sampleCfg calmEnv 5 sampleStore =
        (.ok s, st₁) := ⟨_, _, rfl⟩
  obtain ⟨st₂, hturns⟩ := Option.isSome_iff_exists.1 (h s st₁ hpre)
  exact ⟨_, s, st₁, st₂, calmEnv, hpre, hturns, calmEnv_succeeds, rfl⟩

theorem conversation_charged_once_iff_free :
    ∃ st', Conversation sampleCfg calmEnv (flatRatio 0) (sampleRealtime 0)
        (newSession sampleInfo 5 .wallet 1000 false) 5 [sampleTurn] sampleStore st' ∧
      ChargedOnce (flatRatio 0) (sampleRealtime 0) [sampleTurn] sampleStore st' := by
  obtain ⟨st', hconv⟩ := sampleConversation (r := 0) (by rintro _ _ ⟨⟩; decide +kernel)
  exact ⟨st', hconv, (conversation_charged_once_iff (by decide) rfl rfl hconv).2 (by decide +kernel)⟩

/-- One turn of ten tokens at ratio one: the wallet gives twenty. -/
theorem conversation_charged_twice :
    ∃ st', Conversation sampleCfg calmEnv (flatRatio 1) (sampleRealtime 1)
        (newSession sampleInfo 5 .wallet 1000 false) 5 [sampleTurn] sampleStore st' ∧
      usageQuota (flatRatio 1) (sampleRealtime 1) (summedUsage [sampleTurn]) = 10 ∧
      sampleStore.walletLevel - st'.walletLevel = 20 ∧
      ¬ ChargedOnce (flatRatio 1) (sampleRealtime 1) [sampleTurn] sampleStore st' := by
  obtain ⟨st', hconv⟩ := sampleConversation (r := 1) (by rintro _ _ ⟨⟩; decide +kernel)
  have hcharge : sampleStore.walletLevel - st'.walletLevel = 20 := by
    rw [conversation_charge (by decide) rfl rfl hconv]
    decide +kernel
  have hquota : usageQuota (flatRatio 1) (sampleRealtime 1) (summedUsage [sampleTurn]) = 10 := by decide +kernel
  refine ⟨st', hconv, hquota, hcharge, ?_⟩
  rw [ChargedOnce, hcharge, hquota]
  decide

end NewApi
