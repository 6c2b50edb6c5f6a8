import NewApi.Proof.Session
import NewApi.Trace.Run

/-!
# A settlement charges the actual cost, and the drift of the tokens pool

A pre-consume opens the hold (`preConsume_opens`), the calls before the end keep its total and its drift
(`pending_run`), and a settlement charges the actual cost plus the drift (`Ledger.Hold.settle_charge`). The tokens
pool takes `min estimate balance` while the session records the estimate, so its drift is zero only for a positive
estimate within the balance.
-/

namespace NewApi

open Store Funding SubTable

open Ledger (Hold)

variable {cfg : Config} {env : Env} {st st' : Store} {s s' : BillingSession} {info : RelayInfo} {src : BillingSource}
  {q : ℤ} {senv : SubEnv} {s₀ : BillingSession} {restricted : Bool}

/-- `L` is `st.level`, but for resets that were due; on the account `a` the due reset is done. -/
structure Opened (senv : SubEnv) (st : Store) (a : Account) (L : Account → ℤ) : Prop where
  self : L a = st.levelNow senv a
  all : ∀ b, L b = st.level b ∨ L b = st.levelNow senv b

theorem tokensPreConsume_ok {amount x : ℤ} (h : tokensPreConsume env amount st = .ok (x, st')) :
    x = min (estimated amount) st.tokensBalance ∧ 0 < x ∧ Takes st st' (Pi.single .tokens x) := by
  have hpos : 0 < estimated amount := by unfold estimated; split <;> omega
  unfold tokensPreConsume at h
  split at h
  · cases h
  · rename_i st1 htry
    cases h
    obtain ⟨hle, -, htakes⟩ | ⟨-, hfalse⟩ := tryReserveUserTokens_pos hpos htry
    · exact ⟨(min_eq_left hle).symm, hpos, htakes⟩
    · cases hfalse
  rename_i st1 htry
  -- the balance is below the estimate, and is taken whole
  obtain ⟨-, htrue, -⟩ | ⟨hlt, -⟩ := tryReserveUserTokens_pos hpos htry
  · cases htrue
  split_ifs at h with hread
  · split at h
    · rename_i st2 htry2
      cases h
      obtain ⟨-, -, htakes⟩ | ⟨-, hfalse⟩ := tryReserveUserTokens_pos hread.2 htry2
      · exact ⟨(min_eq_right hlt.le).symm, hread.2, htakes⟩
      · cases hfalse
    · cases h

theorem opened_of_level {a : Account} {L : Account → ℤ} (hL : L = st.level)
    (ha : ∀ id, a ≠ .subscription id) : Opened senv st a L := by
  subst hL
  refine ⟨?_, fun b => .inl rfl⟩
  cases a with
  | subscription id => exact absurd rfl (ha id)
  | _ => rfl

theorem charged_opened {visited : List ℕ} {sub : SubStore} {id : ℕ} {amount : ℤ}
    (hpos : 0 < amount) (hch : Charged senv visited st.sub.table sub.table id amount) :
    Opened senv st (.subscription id)
      (({ st with sub := sub } : Store).level + Pi.single (Account.subscription id) amount) := by
  obtain ⟨row, hrow, hrow', -⟩ := hch.row
  set L : Account → ℤ := ({ st with sub := sub } : Store).level + Pi.single (.subscription id) amount with hL
  have hself : L (.subscription id) = st.levelNow senv (.subscription id) := by
    simp only [hL, Pi.add_apply, Pi.single_eq_same, level, levelNow,
      used_eq hrow', usedNow_eq hrow, UserSubscription.withUsed_amountUsed]
    omega
  refine ⟨hself, fun b => ?_⟩
  cases b with
  | subscription j =>
    rcases eq_or_ne j id with rfl | hj
    · exact .inr hself
    -- another row is as it was, or had its reset
    have hsingle : (Pi.single (.subscription id) amount : Account → ℤ) (.subscription j) = 0 :=
      Pi.single_eq_of_ne (fun heq => hj (Account.subscription.inj heq)) _
    rcases hch.others j hj with hsame | ⟨-, hreset⟩
    · left
      simp [hL, Pi.add_apply, hsingle, level, used, hsame]
    right
    simp only [hL, Pi.add_apply, hsingle, level, levelNow, used, usedNow, hreset, add_zero]
    cases st.sub.table.find j <;> rfl
  | _ => left; simp [hL, level, walletLevel, tokenRemain, tokenUsed]

def tokensDrift (src : BillingSource) (effective balance : ℤ) : ℤ :=
  if src = .tokens then min (estimated effective) balance - effective else 0

theorem tokensDrift_eq_zero_iff {e balance : ℤ} (he : 0 ≤ e) (hb : src = .tokens → 0 < min (estimated e) balance) :
    tokensDrift src e balance = 0 ↔ (src = .tokens → 0 < e ∧ e ≤ balance) := by
  unfold tokensDrift
  split_ifs with hsrc
  · replace hb := hb hsrc
    unfold estimated at hb ⊢
    constructor
    · intro hdrift _
      -- for a quota of zero the pool gives at least one, which nothing has recorded
      split at hdrift <;> rename_i hle
      · omega
      · omega
    intro h
    obtain ⟨hpos, hle⟩ := h hsrc
    rw [if_neg (by omega), min_eq_left hle, sub_self]
  · simp [hsrc]

structure Funded (senv : SubEnv) (src : BillingSource) (e : ℤ) (st st' : Store) (f : Funding) :
    Prop where
  source : f.source = src
  opened : ∀ s : BillingSession, s.funding = f → s.extraReserved = 0 →
    Opened senv st f.account (st'.level + Pi.single f.account s.owed)
  pool : ∀ s : BillingSession, s.funding = f → s.extraReserved = 0 → s.preConsumedQuota = e →
    (∀ g, f = .subscription g → s.relayInfo.subscriptionId = g.subscriptionId) → PoolOpen s st'.sub
  drift : ∀ s : BillingSession, s.funding = f → s.extraReserved = 0 →
    s.owed - s.poolCost e = tokensDrift src e st.tokensBalance
  balance : src = .tokens → 0 < min (estimated e) st.tokensBalance

theorem subscriptionPreConsume_ok {f f' : SubscriptionFunding} (hfresh : st.sub.records f.requestId = none)
    (h : subscriptionPreConsume env f st = .ok (f', st')) :
    ∃ sub visited, st' = { st with sub := sub } ∧ f'.requestId = f.requestId ∧
      isBlank f.requestId = false ∧ 0 < f.amount ∧ f'.preConsumed = f.amount ∧
      sub.records f.requestId = some ⟨f'.subscriptionId, f.amount, false⟩ ∧
      Charged env.subEnv visited st.sub.table sub.table f'.subscriptionId f.amount := by
  unfold subscriptionPreConsume at h
  split at h
  · cases h
  rename_i res sub hpre
  obtain ⟨hblank, hpos, hres, hrec, hch⟩ := preConsumeUserSubscription_ok hfresh hpre
  have hrec' : sub.records f.requestId = some ⟨res.userSubscriptionId, f.amount, false⟩ := by
    rw [hrec, Function.update_self]
  split at h
  · cases h; exact ⟨sub, _, rfl, rfl, hblank, hpos, hres, hrec', hch⟩
  · cases h; exact ⟨sub, _, rfl, rfl, hblank, hpos, hres, hrec', hch⟩

theorem subscriptionPreConsume_funded {e : ℤ} {f g : SubscriptionFunding} (he : f.amount = e)
    (hfresh : st.sub.records f.requestId = none) (h : subscriptionPreConsume env f st = .ok (g, st')) :
    Funded env.subEnv .subscription e st st' (.subscription g) := by
  subst he
  obtain ⟨sub, visited, rfl, hreq, hblank, hpos, hamount, hrec, hch⟩ := subscriptionPreConsume_ok hfresh h
  refine ⟨rfl, ?_, ?_, ?_, ?_⟩
  · intro s hs hextra
    have howed : s.owed = f.amount := by simp [BillingSession.owed, hs, hextra, hamount]
    rw [howed]
    exact charged_opened hpos hch
  · intro s hs hextra hq hinfo
    obtain ⟨row, hrow, hrow', hle⟩ := hch.row
    rw [PoolOpen, hs, hextra]
    refine ⟨by rw [hq, hamount, add_zero], hinfo g rfl, ?_, ?_, ?_, ?_⟩
    · rw [hreq]; exact hblank
    · rw [hreq, hamount]; exact hrec
    · rw [hamount]; exact hpos
    refine ⟨_, hrow', ?_, ?_⟩
    · rw [hamount, UserSubscription.withUsed_amountUsed]; omega
    rw [UserSubscription.withUsed_amountUsed, UserSubscription.withUsed_amountTotal]
    intro htot
    omega
  · intro s hs hextra
    simp [BillingSession.owed, BillingSession.poolCost, hs, hextra, hamount, tokensDrift]
  · intro hsrc; cases hsrc

theorem opened_of_takes {f : Funding} {c : ℤ} (hf : ∀ id, f.account ≠ .subscription id)
    (htakes : Takes st st' (Pi.single f.account c)) :
    Opened senv st f.account (st'.level + Pi.single f.account c) := by
  refine opened_of_level ?_ hf
  rw [htakes.level]
  exact sub_add_cancel _ _

theorem fundingPreConsume_ok {e : ℤ} {f : Funding} (he : 0 ≤ e)
    (hsub : src = .subscription → e = q ∧ st.sub.records info.requestId = none)
    (h : (fundingOf info q src).preConsume cfg env e st = .ok (f, st')) :
    Funded env.subEnv src e st st' f := by
  unfold preConsume fundingOf at h
  cases src with
  | wallet =>
    dsimp only at h
    -- an effective quota of zero (trusted, or nothing to take) leaves the wallet alone
    have hcases : ∃ c, f = .wallet c ∧ c = e ∧ Takes st st' (Pi.single .wallet c) := by
      split at h
      · cases h
        refine ⟨0, rfl, by omega, ?_⟩
        rw [Pi.single_zero]
        exact Takes.refl st
      split at h
      · cases h
      · cases h
      · cases h
        exact ⟨e, rfl, rfl, tryReserveUserQuota_takes ‹_›⟩
    obtain ⟨c, rfl, rfl, htakes⟩ := hcases
    refine ⟨rfl, ?_, ?_, ?_, fun hsrc => by cases hsrc⟩
    · intro s hs _
      rw [BillingSession.owed, hs]
      exact opened_of_takes (by intro id; simp [account]) htakes
    · intro s hs _ hpre _
      rw [PoolOpen, hs]
      exact hpre.symm
    · intro s hs _
      simp [BillingSession.owed, BillingSession.poolCost, hs, tokensDrift]
  | subscription =>
    dsimp only at h
    obtain ⟨heq, hfresh⟩ := hsub rfl
    split at h
    · cases h
    rename_i g st1 hpre
    cases h
    exact subscriptionPreConsume_funded heq.symm hfresh hpre
  | requests =>
    dsimp only at h
    split at h
    · cases h
    · cases h
    rename_i st1 htry
    cases h
    have htakes := tryReserveUserRequests_takes htry (by decide)
    refine ⟨rfl, ?_, ?_, ?_, fun hsrc => by cases hsrc⟩
    · intro s hs _
      rw [BillingSession.owed, hs]
      exact opened_of_takes (by intro id; simp [account]) htakes
    · intro s hs _ _ _
      rw [PoolOpen, hs]
    · intro s hs _
      simp [BillingSession.owed, BillingSession.poolCost, hs, tokensDrift]
  | tokens =>
    dsimp only at h
    split at h
    · cases h
    rename_i taken st1 htry
    cases h
    obtain ⟨htaken, hpos, htakes⟩ := tokensPreConsume_ok htry
    refine ⟨rfl, ?_, ?_, ?_, fun _ => htaken ▸ hpos⟩
    · intro s hs _
      rw [BillingSession.owed, hs]
      exact opened_of_takes (by intro id; simp [account]) htakes
    · intro s hs _ _ _
      rw [PoolOpen, hs]
      exact hpos
    · intro s hs _
      simp [BillingSession.owed, BillingSession.poolCost, hs, tokensDrift, htaken]

theorem preConsumeFunding_ok {e c : ℤ} {trust : Bool} (h : s₀.preConsumeFunding cfg env e c trust st = (.ok s, st')) :
    ∃ f, s₀.funding.preConsume cfg env e st = .ok (f, st') ∧ s = (s₀.preConsumed f e c trust).syncRelayInfo := by
  unfold BillingSession.preConsumeFunding at h
  split at h
  · cases h
  rename_i f st1 hf
  cases h
  exact ⟨f, hf, rfl⟩

theorem preConsume_ok (hq : 0 ≤ q) (hzero : s₀.tokenConsumed = 0) (h : s₀.preConsume cfg env q st = (.ok s, st')) :
    ∃ st1 f, Takes st st1 (s₀.relayInfo.tokenPart (s₀.effectiveQuota cfg env q st)) ∧
      s₀.funding.preConsume cfg env (s₀.effectiveQuota cfg env q st) st1 = .ok (f, st') ∧
      s = (s₀.preConsumed f (s₀.effectiveQuota cfg env q st) (s₀.effectiveQuota cfg env q st)
        (s₀.shouldTrust cfg env st)).syncRelayInfo := by
  have hnonneg : 0 ≤ s₀.effectiveQuota cfg env q st := by
    unfold BillingSession.effectiveQuota
    split <;> omega
  unfold BillingSession.preConsume at h
  dsimp only at h
  split at h
  · split at h
    · cases h
    rename_i st1 htok
    obtain ⟨f, hf, hs⟩ := preConsumeFunding_ok h
    exact ⟨st1, f, preConsumeTokenQuota_takes htok, hf, hs⟩
  -- nothing is asked of the API token
  rename_i hle
  have heff : s₀.effectiveQuota cfg env q st = 0 := by omega
  rw [heff, hzero] at h
  obtain ⟨f, hf, hs⟩ := preConsumeFunding_ok h
  refine ⟨st, f, ?_, ?_, ?_⟩
  · rw [heff, tokenPart_zero]
    exact Takes.refl st
  · rw [heff]
    exact hf
  · rw [heff]
    exact hs

theorem open_drift (ho : Open s st) :
    (s.toHold st).drift = Pi.single s.funding.account (s.owed - s.poolCost s.preConsumedQuota) := by
  show s.held - s.cost s.preConsumedQuota = _
  rw [BillingSession.held, BillingSession.cost, ho.token, Pi.single_sub]
  abel

abbrev newSession (info : RelayInfo) (q : ℤ) (src : BillingSource) (available : ℤ) (restricted : Bool) :
    BillingSession :=
  BillingSession.new info (fundingOf info q src) available restricted

structure Opening (env : Env) (info : RelayInfo) (src : BillingSource) (e : ℤ) (st : Store)
    (s : BillingSession) (st' : Store) : Prop where
  isOpen : Open s st'
  source : s.funding.source = src
  playground : s.relayInfo.isPlayground = info.isPlayground
  billingSource : s.relayInfo.billingSource = some src
  recorded : s.preConsumedQuota = e
  total : Opened env.subEnv st s.funding.account (s.toHold st').total
  drift : (s.toHold st').drift = Pi.single s.funding.account (tokensDrift src e st.tokensBalance)
  balance : src = .tokens → 0 < min (estimated e) st.tokensBalance

theorem levelNow_of_takes {v : Account → ℤ} (h : Takes st st' v) (hv : ∀ id, v (.subscription id) = 0) (b : Account) :
    st.levelNow senv b = st'.levelNow senv b + v b := by
  have hb := congrFun h.level b
  cases b with
  | subscription => simp [levelNow, h.sub, hv]
  | _ => simp [levelNow, hb, Pi.sub_apply, sub_add_cancel]

theorem Opened.of_takes {a : Account} {L v : Account → ℤ} (ht : Takes st st' v)
    (hv : ∀ id, v (.subscription id) = 0) (h : Opened senv st' a L) : Opened senv st a (L + v) := by
  refine ⟨?_, fun b => ?_⟩
  · rw [Pi.add_apply, h.self, levelNow_of_takes ht hv]
  rcases h.all b with hb | hb
  · left
    rw [Pi.add_apply, hb, ht.level, Pi.sub_apply, sub_add_cancel]
  · right
    rw [Pi.add_apply, hb, levelNow_of_takes ht hv]

theorem tokenPart_apply (info : RelayInfo) (x : ℤ) {b : Account} (hr : b ≠ .tokenRemain)
    (hu : b ≠ .tokenUsed) : info.tokenPart x b = 0 := by
  unfold RelayInfo.tokenPart tokenCharge
  split
  · rfl
  · rw [Pi.add_apply, Pi.single_eq_of_ne hr, Pi.single_eq_of_ne hu, add_zero]

theorem subscription_not_trusted {available : ℤ} (hsrc : src = .subscription) :
    (newSession info q src available restricted).shouldTrust cfg env st = false := by
  subst hsrc
  unfold BillingSession.shouldTrust
  split
  · rfl
  split
  · rfl
  split <;> rfl

/-- **A pre-consume opens a hold** whose drift is that of the tokens pool. -/
theorem preConsume_opens {available : ℤ} (hq : 0 ≤ q)
    (hfresh : src = .subscription → st.sub.records info.requestId = none)
    (h : (newSession info q src available restricted).preConsume cfg env q st = (.ok s, st')) :
    Opening env info src ((newSession info q src available restricted).effectiveQuota cfg env q st) st s st' := by
  obtain ⟨st1, f, htakes, hf, rfl⟩ := preConsume_ok hq rfl h
  set e := (newSession info q src available restricted).effectiveQuota cfg env q st with he
  have hnonneg : 0 ≤ e := by
    rw [he, BillingSession.effectiveQuota]
    split <;> omega
  have hsub : src = .subscription → e = q ∧ st1.sub.records info.requestId = none := by
    intro hsrc
    rw [htakes.sub]
    refine ⟨?_, hfresh hsrc⟩
    rw [he, BillingSession.effectiveQuota, subscription_not_trusted hsrc, if_neg (by decide)]
  have hfunded := fundingPreConsume_ok hnonneg hsub hf
  obtain ⟨info', hsync, hplay, hsource, hinfo⟩ := syncRelayInfo_eq
    ((newSession info q src available restricted).preConsumed f e e
      ((newSession info q src available restricted).shouldTrust cfg env st))
  rw [hsync]
  set s := { (newSession info q src available restricted).preConsumed f e e
    ((newSession info q src available restricted).shouldTrust cfg env st) with relayInfo := info' } with hs
  have hpool : PoolOpen s st'.sub := hfunded.pool s rfl rfl rfl hinfo
  have hopen : Open s st' := ⟨rfl, rfl, rfl, rfl, hnonneg, le_refl 0, hpool⟩
  -- the pool is asked after the API token, which does not touch its balance
  have hbal : st1.tokensBalance = st.tokensBalance := by
    have := congrFun htakes.level .tokens
    rw [Pi.sub_apply, tokenPart_apply _ _ (by decide) (by decide), sub_zero] at this
    exact this
  refine ⟨hopen, hfunded.source, hplay, hsource.trans (congrArg some hfunded.source), rfl, ?_, ?_, ?_⟩
  · have htotal : (s.toHold st').total = st'.level + Pi.single f.account s.owed + info.tokenPart e := by
      show st'.level + (Pi.single f.account s.owed + info'.tokenPart e) = _
      rw [tokenPart_congr hplay, add_assoc]
      rfl
    rw [htotal]
    exact (hfunded.opened s rfl rfl).of_takes htakes (fun id => tokenPart_apply _ _ (by simp) (by simp))
  · rw [open_drift hopen, ← hbal]
    exact congrArg _ (hfunded.drift s rfl rfl)
  · rw [← hbal]
    exact hfunded.balance

theorem settleToken_ne_err {a δ : ℤ} {err : Err} (henv : env.Succeeds) :
    s.settleToken cfg env a δ st ≠ (s', st', some err) := by
  intro heq
  have herr : (s.adjustToken cfg env δ st).2 = some err := congrArg (fun r => r.2.2) heq
  unfold BillingSession.adjustToken at herr
  -- a token quota of `|δ|` can always be moved
  unfold decreaseTokenQuota increaseTokenQuota persistTokenQuotaDelta at herr
  rw [henv.token] at herr
  grind

/-- A `Settle` that returns an error did nothing: the quota is over the limit of the model, or the pool refused it. -/
theorem settle_err {a : ℤ} {err : Err} (henv : env.Succeeds) (h : s.settle cfg env a st = (s', st', some err)) :
    s' = s ∧ st' = st ∧ (s.overLimit a = true ∨
      ∃ e, s.funding.settle cfg env (a - s.preConsumedQuota) st = .error e) := by
  unfold BillingSession.settle at h
  split at h
  · cases h
  dsimp only at h
  split_ifs at h
  · cases h; exact ⟨rfl, rfl, .inl ‹_›⟩
  · split at h
    · rename_i hfund
      cases h
      exact ⟨rfl, rfl, .inr ⟨_, hfund⟩⟩
    · exact absurd h (settleToken_ne_err henv)
  · exact absurd h (settleToken_ne_err henv)

structure Pending (s₀ : BillingSession) (st₀ : Store) (s : BillingSession) (st : Store) : Prop where
  isOpen : Open s st
  same : Same s₀ s
  total : (s.toHold st).total = (s₀.toHold st₀).total
  drift : (s.toHold st).drift = (s₀.toHold st₀).drift

theorem pending_step {st₀ : Store} {c : Call}
    (hp : Pending s₀ st₀ s st) (h : PendingStep cfg (s, st) c (s', st')) : Pending s₀ st₀ s' st' := by
  cases h with
  | reserve henv hres =>
    obtain ⟨hopen, hsame, v, hv⟩ := reserve_refines hp.isOpen henv.rollback hres
    refine ⟨hopen, hp.same.trans hsame, ?_, ?_⟩
    · rw [hv, Hold.total_take, hp.total]
    · rw [hv, Hold.drift_take _ rfl, hp.drift]
  | settle henv hset =>
    obtain ⟨rfl, rfl, -⟩ := settle_err henv hset
    exact hp

theorem pending_run {cs : List Call} (ho : Open s st)
    (h : Trace.Run (PendingStep cfg) (s, st) cs (s', st')) : Pending s st s' st' :=
  Trace.Run.inv (I := fun p : BillingSession × Store => Pending s st p.1 p.2)
    (fun _ _ _ hp hst => pending_step hp hst) h
    ⟨ho, Same.refl s, rfl, rfl⟩

theorem account_ne_token (f : Funding) : f.account ≠ .tokenRemain ∧ f.account ≠ .tokenUsed := by
  cases f <;> simp [account]

/-- **What a whole session charges**: its pool the actual cost plus the drift, the API token the actual cost. -/
theorem settle_charges {available a : ℤ} {env' : Env} {s1 s2 s3 : BillingSession}
    {st1 st2 st3 : Store} {cs : List Call} (hq : 0 ≤ q)
    (hfresh : src = .subscription → st.sub.records info.requestId = none)
    (hpre : (newSession info q src available restricted).preConsume cfg env q st = (.ok s1, st1))
    (hcs : Trace.Run (PendingStep cfg) (s1, st1) cs (s2, st2))
    (hset : s2.settle cfg env' a st2 = (s3, st3, none)) (ha : 0 ≤ a) :
    st.levelNow env.subEnv s1.funding.account - st3.level s1.funding.account = s1.poolCost a + tokensDrift src
          ((newSession info q src available restricted).effectiveQuota cfg env q st) st.tokensBalance ∧
      (info.isPlayground = false → st.tokenRemain - st3.tokenRemain = a) := by
  have hop := preConsume_opens hq hfresh hpre
  have hp := pending_run hop.isOpen hcs
  have hlev := settle_refines hp.isOpen ha hset
  have hcharge := Hold.settle_charge (s2.toHold st2) (s2.cost a)
  -- total and drift are those of the opening, whatever was reserved in between
  rw [← hlev, hp.total, hp.drift, hop.drift, cost_congr hp.same] at hcharge
  obtain ⟨hr, hu⟩ := account_ne_token s1.funding
  refine ⟨?_, fun hplay => ?_⟩
  · have := congrFun hcharge s1.funding.account
    simp only [Pi.sub_apply, Pi.add_apply, BillingSession.cost, Pi.single_eq_same,
      tokenPart_apply _ _ hr hu, add_zero, hop.total.self] at this
    exact this
  have := congrFun hcharge .tokenRemain
  have hpart : s1.relayInfo.tokenPart a .tokenRemain = a := by
    simp [RelayInfo.tokenPart, hop.playground, hplay, tokenCharge]
  have hL : (s1.toHold st1).total .tokenRemain = st.tokenRemain := by
    rcases hop.total.all .tokenRemain with h | h <;> exact h
  simp only [Pi.sub_apply, Pi.add_apply, BillingSession.cost, Pi.single_eq_of_ne hr.symm, hpart,
    add_zero, zero_add, hL] at this
  exact this

/-- The session charged the actual quota `a`: its pool what a request that costs `a` takes, and the API token `a`
unless it is a playground request. -/
structure ChargesActual (senv : SubEnv) (st st' : Store) (s : BillingSession) (a : ℤ) : Prop where
  pool : st.levelNow senv s.funding.account - st'.level s.funding.account = s.poolCost a
  token : s.relayInfo.isPlayground = false → st.tokenRemain - st'.tokenRemain = a

/-- **A session charges the actual quota** but for the tokens pool, when the request is trusted, its estimate is zero,
or it exceeds the balance. -/
theorem settle_charges_actual_iff {available a : ℤ} {restricted : Bool} {env' : Env}
    {s₁ s₂ s₃ : BillingSession} {st₁ st₂ st₃ : Store} {cs : List Call} (hq : 0 ≤ q)
    (hfresh : src = .subscription → st.sub.records info.requestId = none)
    (hpre : (newSession info q src available restricted).preConsume cfg env q st = (.ok s₁, st₁))
    (hcs : Trace.Run (PendingStep cfg) (s₁, st₁) cs (s₂, st₂))
    (hset : s₂.settle cfg env' a st₂ = (s₃, st₃, none)) (ha : 0 ≤ a) :
    ChargesActual env.subEnv st st₃ s₁ a ↔
      (src = .tokens → (newSession info q src available restricted).shouldTrust cfg env st = false ∧
          0 < q ∧ q ≤ st.tokensBalance) := by
  have hop := preConsume_opens hq hfresh hpre
  obtain ⟨hpool, htoken⟩ := settle_charges hq hfresh hpre hcs hset ha
  set e := (newSession info q src available restricted).effectiveQuota cfg env q st with he
  have hnonneg : 0 ≤ e := hop.recorded ▸ hop.isOpen.nonneg
  have hdrift := tokensDrift_eq_zero_iff hnonneg hop.balance
  have heff : 0 < e ∧ e ≤ st.tokensBalance ↔
      (newSession info q src available restricted).shouldTrust cfg env st = false ∧ 0 < q ∧ q ≤ st.tokensBalance := by
    rw [he, BillingSession.effectiveQuota]
    by_cases htrust : (newSession info q src available restricted).shouldTrust cfg env st = true <;> simp [htrust]
  rw [heff] at hdrift
  rw [← hdrift]
  constructor
  · intro hcharges
    have := hcharges.pool
    omega
  intro hzero
  refine ⟨by omega, ?_⟩
  rw [hop.playground]
  exact htoken

def calmEnv : Env where
  subEnv := ⟨⟨id, id, id⟩, fun _ => none, 0⟩
  now := 0
  userCache := .miss
  tokenCache := .miss
  cachedUserQuota := none
  fundingErr := false
  retryErr := false
  tokenErr := false
  rollbackErr := false
  readErr := false
  packageErr := false

theorem calmEnv_succeeds : calmEnv.Succeeds := ⟨rfl, rfl, rfl, rfl, rfl, rfl⟩

def sampleCfg : Config := ⟨false, 500, false⟩

def sampleInfo : RelayInfo where
  requestId := "req"
  originModelName := "model"
  isPlayground := false
  tokenUnlimited := false
  forcePreConsume := false
  tokenQuota := 0
  userQuota := 0
  finalPreConsumedQuota := 0
  billingSource := none
  subscriptionId := 0
  subscriptionPreConsumed := 0
  subscriptionPostDelta := 0
  subscriptionAmountTotal := 0
  subscriptionAmountUsedAfterPreConsume := 0
  subscriptionPlanId := 0
  subscriptionPlanTitle := ""

def sampleStore : Store where
  quota := 1000
  pendingQuota := 0
  requestsBalance := 1000
  tokensBalance := 1000
  remainQuota := 1000
  usedQuota := 0
  pendingTokenQuota := 0
  sub := ⟨⟨[], List.nodup_nil, fun _ h => absurd h List.not_mem_nil⟩, fun _ => none⟩
  packages := []

theorem settle_charges_actual_iff_tokens :
    ∃ s₁ st₁ s₂ st₂ s₃ st₃, (newSession sampleInfo 5 .tokens 1000 false).preConsume sampleCfg calmEnv 5 sampleStore =
        (.ok s₁, st₁) ∧
      Trace.Run (PendingStep sampleCfg) (s₁, st₁) [.reserve calmEnv 8] (s₂, st₂) ∧
      s₂.settle sampleCfg calmEnv 6 st₂ = (s₃, st₃, none) ∧
      ChargesActual calmEnv.subEnv sampleStore st₃ s₁ 6 := by
  have hfresh : BillingSource.tokens = .subscription → sampleStore.sub.records sampleInfo.requestId = none := by decide
  obtain ⟨s₁, st₁, s₂, st₂, hpre, hres, s₃, st₃, hset⟩ : ∃ s₁ st₁ s₂ st₂,
      (newSession sampleInfo 5 .tokens 1000 false).preConsume sampleCfg calmEnv 5 sampleStore = (.ok s₁, st₁) ∧
      s₁.reserve sampleCfg calmEnv 8 st₁ = (s₂, st₂, none) ∧
      ∃ s₃ st₃, s₂.settle sampleCfg calmEnv 6 st₂ = (s₃, st₃, none) :=
    ⟨_, _, _, _, rfl, rfl, _, _, rfl⟩
  have hcs : Trace.Run (PendingStep sampleCfg) (s₁, st₁) [.reserve calmEnv 8] (s₂, st₂) :=
    .cons (.reserve calmEnv_succeeds hres) (.nil _)
  refine ⟨s₁, st₁, s₂, st₂, s₃, st₃, hpre, hcs, hset, ?_⟩
  refine (settle_charges_actual_iff (by decide) hfresh hpre hcs hset (by decide)).2 ?_
  intro _
  decide

/-- A request with an estimate of zero that costs 7: 107 tokens are gone. -/
theorem tokens_zero_estimate_overcharged :
    ∃ s₁ st₁ s₂ st₂, (newSession sampleInfo 0 .tokens 1000 false).preConsume sampleCfg calmEnv 0 sampleStore =
        (.ok s₁, st₁) ∧
      s₁.settle sampleCfg calmEnv 7 st₁ = (s₂, st₂, none) ∧
      sampleStore.tokensBalance - st₂.tokensBalance = 107 ∧
      ¬ ChargesActual calmEnv.subEnv sampleStore st₂ s₁ 7 := by
  refine ⟨_, _, _, _, rfl, rfl, by decide, fun h => ?_⟩
  have := h.pool
  revert this
  decide

end NewApi
