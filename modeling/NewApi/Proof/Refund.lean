import NewApi.Proof.Settlement

/-!
# A refund gives the hold back, when it is made

`refund_refines`: the goroutine of a `Refund` gives back exactly what the session holds. Whether there is one is
decided by `needsRefund`, which looks at the API token and, for a subscription, at what was pre-consumed. The requests
and the tokens pool also give when the API token gives nothing, which is not given back (`refund_restores_iff`).
-/

namespace NewApi

open BillingSession Funding
open RefundJob (giveExtra run step again)

open Ledger (Hold)

variable {cfg : Config} {env : Env} {st st' : Store} {s s' : BillingSession} {info : RelayInfo} {src : BillingSource}
  {q : ℤ} {s₀ : BillingSession}

def BillingSession.extraPart (s : BillingSession) : ℤ :=
  match s.funding with
  | .subscription _ => s.extraReserved
  | _ => 0

theorem level_of_takes_neg {a : Account} {c : ℤ} (h : Takes st st' (Pi.single a (-c))) :
    st'.level = st.level + Pi.single a (c - 0) := by
  rw [h.level, sub_zero, Pi.single_neg, sub_neg_eq_add]

theorem refundSubscription_ok {f : SubscriptionFunding} (hf : s.funding = .subscription f) (ho : Open s st) :
    0 < f.preConsumed ∧ ∃ sub row, refundSubscriptionPreConsume .none f.requestId st.sub = (sub, none) ∧
      ({ st with sub := sub } : Store).level = st.level + Pi.single (.subscription f.subscriptionId) f.preConsumed ∧
      sub.table.find f.subscriptionId = some row ∧ s.extraReserved ≤ row.amountUsed ∧
      (0 < row.amountTotal → (row.amountUsed : ℤ) ≤ row.amountTotal) := by
  have hpool := ho.pool
  rw [PoolOpen, hf] at hpool
  obtain ⟨-, -, hopen⟩ := hpool
  obtain ⟨row, hfind, hge, hle⟩ := hopen.row
  have hpos := hopen.pos
  have hextra := ho.extra
  -- the record is found, and taking the pre-consumed amount off cannot exceed the total
  have hrefund := refundSubscriptionPreConsume_eq hopen.notBlank hopen.record hpos hfind
    (fun htot => by have := hle htot; omega)
  refine ⟨hpos, _, _, hrefund, ?_, SubTable.find_save_self hfind (SubTable.find_id (s := row) hfind), ?_, ?_⟩
  · rw [level_saveUsed (x := -f.preConsumed) hfind (by omega), Pi.single_neg, sub_neg_eq_add]
  · rw [UserSubscription.withUsed_amountUsed]
    omega
  rw [UserSubscription.withUsed_amountUsed, UserSubscription.withUsed_amountTotal]
  intro htot
  have := hle htot
  omega

theorem refundFunding_ok (cfg : Config) (ho : Open s st) : ∃ st1, s.funding.refund cfg .none st = (st1, none) ∧
      st1.level = st.level + Pi.single s.funding.account (s.owed - s.extraPart) ∧
      ∀ f, s.funding = .subscription f → ∃ row, st1.sub.table.find f.subscriptionId = some row ∧
        s.extraReserved ≤ row.amountUsed ∧
        (0 < row.amountTotal → (row.amountUsed : ℤ) ≤ row.amountTotal) := by
  have hpool := ho.pool
  have hnonneg := ho.nonneg
  have hfault : (RefundFault.none != RefundFault.none) = false := rfl
  unfold PoolOpen at hpool
  -- every pool gives back what its source remembers, and the invariant says that this is owed
  unfold Funding.refund BillingSession.owed extraPart
  cases hf : s.funding with
  | wallet c =>
    rw [hf] at hpool
    dsimp only at hpool ⊢
    split
    · refine ⟨st, rfl, ?_, fun _ h => by cases h⟩
      rw [show c - 0 = 0 by omega, Pi.single_zero, add_zero]
    obtain ⟨st1, h1⟩ := increaseUserQuota_ok (x := c) cfg st (by omega)
    refine ⟨st1, ?_, level_of_takes_neg (increaseUserQuota_takes h1), fun _ h => by cases h⟩
    rw [hfault, h1]
    rfl
  | requests =>
    rw [hf] at hpool
    dsimp only at hpool ⊢
    subst hpool
    obtain ⟨st1, h1⟩ := increaseUserRequests_ok st 1
    refine ⟨st1, ?_, level_of_takes_neg (increaseUserRequests_takes h1 (by decide)), fun _ h => by cases h⟩
    rw [if_neg (by decide), hfault, h1]
    rfl
  | tokens c =>
    rw [hf] at hpool
    dsimp only at hpool ⊢
    obtain ⟨st1, h1⟩ := increaseUserTokens_ok st c
    refine ⟨st1, ?_, level_of_takes_neg (increaseUserTokens_takes h1 hpool.le), fun _ h => by cases h⟩
    rw [if_neg (by omega), hfault, h1]
    rfl
  | subscription =>
    obtain ⟨hpos, sub, row, hrefund, hlevel, hrow⟩ := refundSubscription_ok hf ho
    dsimp only
    rw [if_neg (by omega), hrefund]
    refine ⟨_, rfl, ?_, ?_⟩
    · rw [hlevel, add_sub_cancel_right]
      rfl
    rintro f' hf'
    cases hf'
    exact ⟨row, hrow⟩

theorem giveExtra_level (hextra : 0 ≤ s.extraReserved) (hpool : PoolOpen s st'.sub)
    (hrow : ∀ f, s.funding = .subscription f → ∃ row, st.sub.table.find f.subscriptionId = some row ∧
      s.extraReserved ≤ row.amountUsed ∧
      (0 < row.amountTotal → (row.amountUsed : ℤ) ≤ row.amountTotal)) {job : RefundJob}
    (hjob : job.extraReserved = s.extraReserved) (hid : job.subscriptionId = s.relayInfo.subscriptionId) :
    (job.giveExtra .none s.funding st).level = st.level + Pi.single s.funding.account s.extraPart := by
  unfold giveExtra extraPart
  unfold PoolOpen at hpool
  rw [hjob, hid]
  cases hf : s.funding with
  | subscription f =>
    rw [hf] at hpool
    obtain ⟨-, hinfo, -⟩ := hpool
    obtain ⟨row, hfind, hge, hle⟩ := hrow f hf
    -- the goroutine uses the id that was written to `RelayInfo`, which is the source's
    rw [hinfo]
    split
    · have hpost : postConsumeUserSubscriptionDelta false f.subscriptionId (-s.extraReserved) st.sub = _ :=
        postConsume_eq hfind (fun htot => by have := hle htot; omega)
      rw [show (RefundFault.none != RefundFault.none) = false from rfl, Store.postConsume, hpost]
      have hlev := level_saveUsed (x := -s.extraReserved)
        (n := (row.amountUsed + -s.extraReserved).toNat) hfind (by omega) st.sub.records
      rw [Pi.single_neg, sub_neg_eq_add] at hlev
      exact hlev
    · -- nothing extra was reserved
      rename_i hnone
      have hzero : s.extraReserved = 0 := by
        by_contra hne
        exact hnone ⟨by omega, rfl, SubTable.find_pos hfind⟩
      rw [hzero, Pi.single_zero, add_zero]
  | _ => simp [source]

theorem returnTokenQuota_takes {c : ℤ} (hc : 0 ≤ c) :
    Takes st (returnTokenQuota cfg false info.isPlayground c st) (-info.tokenPart c) := by
  unfold returnTokenQuota RelayInfo.tokenPart
  split
  · rename_i hgo
    obtain ⟨st1, h1⟩ := increaseTokenQuota_ok cfg st hc
    rw [h1, if_neg (by simp [hgo.2]), ← tokenCharge_neg]
    exact increaseTokenQuota_takes h1
  rename_i hno
  have hzero : (if info.isPlayground = true then 0 else tokenCharge c) = 0 := by
    split_ifs with hplay
    · rfl
    have hzero : c = 0 := by
      by_contra hne
      exact hno ⟨by omega, by simpa using hplay⟩
    rw [hzero, tokenCharge_zero]
  rw [hzero, neg_zero]
  exact Takes.refl st

theorem returnTokenQuota_level {c : ℤ} (hc : 0 ≤ c) :
    (returnTokenQuota cfg false info.isPlayground c st).level = st.level + info.tokenPart c := by
  rw [(returnTokenQuota_takes hc).level, sub_neg_eq_add]

theorem run_done (cfg : Config) (f : Funding) (n : ℕ) {job : RefundJob} (h : job.phase = .done)
    (st : Store) : job.run cfg f n st = (job, st) := by
  induction n with
  | zero => rfl
  | succ n ih =>
    rw [run, step, h]
    exact ih

/-- **The goroutine gives the hold back.** -/
theorem refund_refines (cfg : Config) (ho : Open s st) :
    (s.refundJob.run cfg s.funding (refundMaxAttempts + 2) st).1.phase = .done ∧
      (s.refundJob.run cfg s.funding (refundMaxAttempts + 2) st).2.level = ((s.toHold st).refund).balance := by
  obtain ⟨st1, hfund, hlev1, hrow⟩ := refundFunding_ok cfg ho
  have htoken : 0 ≤ s.tokenConsumed := by rw [ho.token]; exact ho.nonneg
  -- the pool succeeds at the first attempt, then come the extra reserve and the API token
  have hstep1 : s.refundJob.step cfg .none s.funding st = ({ s.refundJob with phase := .extra }, st1) := by
    simp [step, refundJob, hfund, again]
  have hrun : s.refundJob.run cfg s.funding (refundMaxAttempts + 2) st = ({ s.refundJob with phase := .done },
        returnTokenQuota cfg false s.relayInfo.isPlayground s.tokenConsumed
          (giveExtra .none s.funding { s.refundJob with phase := .extra } st1)) := by
    rw [refundMaxAttempts, run, hstep1]
    exact run_done cfg s.funding 2 rfl _
  rw [hrun]
  refine ⟨rfl, ?_⟩
  show _ = st.level + s.held
  rw [returnTokenQuota_level htoken, giveExtra_level ho.extra ho.pool hrow rfl rfl, hlev1, held, Pi.single_sub]
  abel

theorem needsRefund_iff (ho : Open s st) :
    s.needsRefund = true ↔ s.funding.source = .subscription ∨ 0 < s.preConsumedQuota := by
  have hpool := ho.pool
  unfold PoolOpen at hpool
  unfold needsRefund
  rw [ho.settled, ho.refunded, ho.fundingSettled, ho.token]
  cases hf : s.funding with
  | subscription =>
    rw [hf] at hpool
    have := hpool.2.2.pos
    simp [source, this]
  | _ => simp [source]

theorem held_of_not_needsRefund (ho : Open s st) (h : ¬ s.needsRefund = true) :
    s.held = Pi.single s.funding.account s.owed ∧
      (s.funding.source = .wallet → s.owed = 0) ∧ (s.funding.source ≠ .wallet → 0 < s.owed) := by
  rw [needsRefund_iff ho, not_or] at h
  obtain ⟨hsub, hpre⟩ := h
  -- nothing recorded, so the API token gave nothing and only the pool may hold something
  have hzero : s.preConsumedQuota = 0 := by
    have := ho.nonneg
    omega
  have hpool := ho.pool
  unfold PoolOpen at hpool
  refine ⟨?_, ?_, ?_⟩
  · rw [held, ho.token, hzero, tokenPart_zero, add_zero]
  · intro hw
    unfold owed
    cases hf : s.funding with
    | wallet =>
      rw [hf] at hpool
      exact hpool.trans hzero
    | _ => rw [hf] at hw; cases hw
  · intro hw
    unfold owed
    cases hf : s.funding with
    | wallet => rw [hf] at hw; exact absurd rfl hw
    | requests => rw [hf] at hpool; dsimp only at hpool ⊢; omega
    | tokens => rw [hf] at hpool; exact hpool
    | subscription => rw [hf] at hsub; exact absurd rfl hsub

theorem refundAll_level (cfg : Config) (ho : Open s st) : (s.refundAll cfg st).level =
      if s.needsRefund then (s.toHold st).total else (s.toHold st).total - s.held := by
  unfold refundAll BillingSession.refund
  rw [ho.settled, ho.refunded]
  by_cases hneeds : s.needsRefund = true
  · simp only [hneeds, Bool.or_self, Bool.not_true, Bool.false_eq_true, if_false, if_true]
    rw [(refund_refines cfg ho).2, Ledger.Hold.refund_balance]
  simp only [hneeds, Bool.or_self, Bool.not_false, Bool.or_true, Bool.false_eq_true, if_false, if_true]
  show st.level = st.level + s.held - s.held
  rw [add_sub_cancel_right]

/-- Every account is as before the request, or for a subscription as after the reset that was due. -/
def Restored (senv : SubEnv) (st st' : Store) : Prop := ∀ b, st'.level b = st.level b ∨ st'.level b = st.levelNow senv b

theorem levelNow_eq_level (senv : SubEnv) (st : Store) {b : Account} (hb : ∀ id, b ≠ .subscription id) :
    st.levelNow senv b = st.level b := by
  cases b with
  | subscription id => exact absurd rfl (hb id)
  | _ => rfl

theorem preConsumeFunding_err {e c : ℤ} {trust : Bool} {err : ApiErr} (henv : env.Succeeds) (hc : 0 ≤ c)
    (h : s₀.preConsumeFunding cfg env e c trust st = (.error err, st')) :
    Takes st st' (-s₀.relayInfo.tokenPart c) := by
  unfold preConsumeFunding at h
  split at h
  · cases h
    rw [henv.rollback]
    exact returnTokenQuota_takes hc
  · cases h

theorem preConsume_err {err : ApiErr} (henv : env.Succeeds)
    (hzero : s₀.tokenConsumed = 0) (h : s₀.preConsume cfg env q st = (.error err, st')) :
    Takes st st' 0 := by
  unfold BillingSession.preConsume at h
  dsimp only at h
  split_ifs at h with hpos
  · split at h
    · cases h
      exact Takes.refl st
    rename_i st1 htok
    -- what the API token gave comes back when the pool refuses
    have htakes := (preConsumeTokenQuota_takes htok).trans (preConsumeFunding_err henv hpos.le h)
    rwa [add_neg_cancel] at htakes
  · rw [hzero] at h
    have htakes := preConsumeFunding_err henv le_rfl h
    rwa [tokenPart_zero, neg_zero] at htakes

/-- **A failed request is free** in every case but one: a request on the requests or the tokens pool whose API token
holds nothing when `Refund` is called. -/
theorem refund_restores_iff {available : ℤ} {restricted : Bool} (hq : 0 ≤ q)
    (hfresh : src = .subscription → st.sub.records info.requestId = none) (henv : env.Succeeds) :
    (∀ err st', (newSession info q src available restricted).preConsume cfg env q st = (.error err, st') →
      st'.level = st.level) ∧
    (∀ s₁ st₁ cs s₂ st₂, (newSession info q src available restricted).preConsume cfg env q st = (.ok s₁, st₁) →
      Trace.Run (PendingStep cfg) (s₁, st₁) cs (s₂, st₂) →
      (Restored env.subEnv st (s₂.refundAll cfg st₂) ↔
        src = .wallet ∨ src = .subscription ∨ 0 < s₂.preConsumedQuota)) := by
  refine ⟨fun err st' h => by rw [(preConsume_err henv rfl h).level, sub_zero], ?_⟩
  intro s₁ st₁ cs s₂ st₂ hpre hcs
  have hop := preConsume_opens hq hfresh hpre
  have hp := pending_run hop.isOpen hcs
  have hsrc : s₂.funding.source = src := hp.same.source.trans hop.source
  have hlev := refundAll_level cfg hp.isOpen
  have hneeds := needsRefund_iff hp.isOpen
  rw [hp.total] at hlev
  rw [hsrc] at hneeds
  by_cases hn : s₂.needsRefund = true
  · -- the hold is given back
    rw [if_pos hn] at hlev
    refine ⟨fun _ => .inr (hneeds.1 hn), fun _ b => ?_⟩
    rw [hlev]
    exact hop.total.all b
  rw [if_neg hn] at hlev
  obtain ⟨hheld, hwallet, hother⟩ := held_of_not_needsRefund hp.isOpen hn
  rw [hheld] at hlev
  rw [hsrc] at hwallet hother
  constructor
  · -- without a goroutine the pool keeps what it gave
    intro hrest
    by_contra hcond
    have hpos := hother (fun hw => hcond (.inl hw))
    have hacc : ∀ id, s₂.funding.account ≠ .subscription id := by
      intro id hid
      have : s₂.funding.source = .subscription := by
        cases hf : s₂.funding <;> rw [hf] at hid <;> simp [account, source] at hid ⊢
      exact hcond (.inr (.inl (hsrc.symm.trans this)))
    have hself : (s₁.toHold st₁).total s₂.funding.account = st.level s₂.funding.account := by
      rw [hp.same.account, hop.total.self, ← hp.same.account, levelNow_eq_level _ _ hacc]
    have hafter := congrFun hlev s₂.funding.account
    rw [Pi.sub_apply, Pi.single_eq_same, hself] at hafter
    rcases hrest s₂.funding.account with hb | hb
    · omega
    · rw [levelNow_eq_level _ _ hacc] at hb
      omega
  · rintro (hw | hs)
    · rw [hwallet hw, Pi.single_zero, sub_zero] at hlev
      intro b
      rw [hlev]
      exact hop.total.all b
    · exact absurd (hneeds.2 hs) hn

theorem refund_restores_iff_wallet :
    ∃ s₁ st₁, (newSession sampleInfo 5 .wallet 1000 false).preConsume sampleCfg calmEnv 5 sampleStore =
        (.ok s₁, st₁) ∧ st₁.quota = 995 ∧
      Restored calmEnv.subEnv sampleStore (s₁.refundAll sampleCfg st₁) := by
  have hfresh : BillingSource.wallet = .subscription → sampleStore.sub.records sampleInfo.requestId = none := by decide
  obtain ⟨s₁, st₁, hpre, hquota⟩ : ∃ s₁ st₁,
      (newSession sampleInfo 5 .wallet 1000 false).preConsume sampleCfg calmEnv 5 sampleStore =
        (.ok s₁, st₁) ∧ st₁.quota = 995 := ⟨_, _, rfl, rfl⟩
  refine ⟨s₁, st₁, hpre, hquota, ?_⟩
  exact ((refund_restores_iff (by decide) hfresh calmEnv_succeeds).2 s₁ st₁ [] s₁ st₁ hpre (.nil _)).2 (.inl rfl)

/-- A trusted request on the requests pool that fails: the request is not given back. -/
theorem trusted_request_not_refunded :
    ∃ s₁ st₁, (newSession { sampleInfo with tokenUnlimited := true } 1 .requests 1000 false).preConsume sampleCfg
        calmEnv 1 sampleStore = (.ok s₁, st₁) ∧
      sampleStore.requestsBalance = 1000 ∧ (s₁.refundAll sampleCfg st₁).requestsBalance = 999 ∧
      ¬ Restored calmEnv.subEnv sampleStore (s₁.refundAll sampleCfg st₁) := by
  refine ⟨_, _, rfl, rfl, by decide, fun h => ?_⟩
  have := h .requests
  revert this
  decide

end NewApi
