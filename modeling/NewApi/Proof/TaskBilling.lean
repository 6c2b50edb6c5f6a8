import NewApi.Proof.Refund
import NewApi.Proof.Wss
import NewApi.Spec.Task

/-!
# What an asynchronous task gives back

On the account that `taskAdjustFunding` adjusts, the balance and the task's quota add up to the same amount through
every recalculation (`recalculate_keeps`), so a refund restores the balance (`refund_restores`). The submission
charged that account only if it was the wallet or a subscription, and the quota only if the settlement succeeded.

* `preConsumeBilling_opens`: whatever pool was chosen, the session is an open hold on it.
-/

namespace NewApi

open Funding List
open UserSubscription (withUsed_amountUsed withUsed_amountTotal)

variable {cfg : Config} {env : Env} {st st' : Store} {s s' : BillingSession} {info : RelayInfo} {src : BillingSource}
  {q : ℤ} {t t' : Task} {L : Account → ℤ} {a : ℤ} {f : SubscriptionFunding}

structure Tried (cfg : Config) (env : Env) (info : RelayInfo) (src : BillingSource) (st : Store)
    (s : BillingSession) (st' : Store) : Prop where
  run : ∃ (info' : RelayInfo) (q available : ℤ) (restricted : Bool), info'.requestId = info.requestId ∧ 0 ≤ q ∧
      (newSession info' q src available restricted).preConsume cfg env q st = (.ok s, st')

theorem subConsume_pos (q : ℤ) : 0 < subConsume q := by
  unfold subConsume
  split <;> omega

theorem tryPool_cases (cfg : Config) (env : Env) (info : RelayInfo) (q : ℤ) (src : BillingSource) (st : Store) :
    (∃ err, tryPool cfg env info q src st = (.error err, st)) ∨
    ∃ (info' : RelayInfo) (q' available : ℤ) (restricted : Bool),
      info'.requestId = info.requestId ∧ (0 ≤ q → 0 ≤ q') ∧ tryPool cfg env info q src st =
          (newSession info' q' src available restricted).preConsume cfg env q' st := by
  cases src with
  | requests =>
    dsimp only [tryPool, tryRequests]
    split
    · exact .inl ⟨_, rfl⟩
    split
    · exact .inl ⟨_, rfl⟩
    split
    · exact .inl ⟨_, rfl⟩
    · exact .inr ⟨info, 1, _, _, rfl, fun _ => by decide, rfl⟩
  | tokens =>
    dsimp only [tryPool, tryTokens]
    split
    · exact .inl ⟨_, rfl⟩
    split
    · exact .inl ⟨_, rfl⟩
    split
    · exact .inl ⟨_, rfl⟩
    · exact .inr ⟨info, q, _, _, rfl, fun hq => hq, rfl⟩
  | subscription =>
    dsimp only [tryPool, trySubscription]
    split
    · exact .inl ⟨_, rfl⟩
    · exact .inr ⟨info, subConsume q, _, _, rfl, fun _ => (subConsume_pos q).le, rfl⟩
  | wallet =>
    dsimp only [tryPool, tryWallet]
    split_ifs
    · exact .inl ⟨_, rfl⟩
    · exact .inl ⟨_, rfl⟩
    split
    · exact .inl ⟨_, rfl⟩
    split
    · exact .inl ⟨_, rfl⟩
    · exact .inr ⟨{ info with userQuota := env.cachedUserQuota.getD st.quota }, q, _, _, rfl, fun hq => hq, rfl⟩

theorem tryPool_ok (hq : 0 ≤ q) (h : tryPool cfg env info q src st = (.ok s, st')) :
    Tried cfg env info src st s st' := by
  rcases tryPool_cases cfg env info q src st with ⟨err, hrefused⟩ | ⟨info', q', available, restricted, hid, hq', hrun⟩
  · rw [hrefused] at h
    cases h
  · exact ⟨info', q', available, restricted, hid, hq' hq, hrun.symm.trans h⟩

theorem tryPool_err {err : ApiErr} (henv : env.Succeeds)
    (h : tryPool cfg env info q src st = (.error err, st')) : Takes st st' 0 := by
  rcases tryPool_cases cfg env info q src st with ⟨err', hrefused⟩ | ⟨info', q', available, restricted, -, -, hrun⟩
  · rw [hrefused] at h
    cases h
    exact Takes.refl st
  · exact preConsume_err henv rfl (hrun.symm.trans h)

theorem cascade_ok {active : List BillingSource} {tries : List (BillingSource × Env)} (hq : 0 ≤ q)
    (henvs : ∀ p ∈ tries, p.2.Succeeds) (h : cascade cfg info q active tries st = (.ok s, st')) :
    ∃ p ∈ tries, ∃ st0, Takes st st0 0 ∧ Tried cfg p.2 info p.1 st0 s st' := by
  induction tries generalizing st with
  | nil => cases h
  | cons p rest ih =>
    unfold cascade at h
    split at h
    · rename_i s1 st1 htry
      cases h
      exact ⟨p, mem_cons_self, st, Takes.refl st, tryPool_ok hq htry⟩
    rename_i err st1 htry
    obtain ⟨p', hp', st0, htakes, htried⟩ := ih (fun p hp => henvs p (mem_cons_of_mem _ hp)) h
    -- a pool that was tried in vain has given nothing
    have htakes' := (tryPool_err (henvs p mem_cons_self) htry).trans htakes
    exact ⟨p', mem_cons_of_mem _ hp', st0, htakes', htried⟩

theorem preConsumeBilling_opens {bs : BillingSetting} {us : UserBillingSetting} {envs : ℕ → Env}
    {clamp : Option QuotaClamp} (henvs : ∀ n, (envs n).Succeeds)
    (hfresh : st.sub.records info.requestId = none)
    (h : preConsumeBilling cfg bs us envs clamp info q st = (.ok s, st')) :
    ∃ n src info' e st0, Takes st st0 0 ∧ Opening (envs n) info' src e st0 s st' := by
  unfold preConsumeBilling at h
  split at h
  · cases h
  split_ifs at h with hq
  · cases h
  have hmem : ∀ p ∈ ((activePriority bs us info.originModelName).zipIdx.map fun p => (p.1, envs p.2)),
      ∃ n, p.2 = envs n := by
    intro p hp
    obtain ⟨p', -, rfl⟩ := mem_map.1 hp
    exact ⟨p'.2, rfl⟩
  obtain ⟨p, hp, st0, htakes, ⟨info', q', available, restricted, hreq, hq', hpre⟩⟩ :=
    cascade_ok (by omega) (fun p hp => by obtain ⟨n, hn⟩ := hmem p hp; rw [hn]; exact henvs n) h
  obtain ⟨n, hn⟩ := hmem p hp
  rw [hn] at hpre
  refine ⟨n, p.1, info', _, st0, htakes, preConsume_opens hq' (fun _ => ?_) hpre⟩
  rw [htakes.sub, hreq]
  exact hfresh

def Account.isPool : Account → Bool
  | .tokenRemain | .tokenUsed => false
  | _ => true

def taskAccount (t : Task) : Account := if taskIsSubscription t then .subscription t.subscriptionId else .wallet

structure TaskHolds (t : Task) (st : Store) (L : Account → ℤ) : Prop where
  nonneg : 0 ≤ t.quota
  level : ∀ b : Account, b.isPool = true → st.level b + (Pi.single (taskAccount t) t.quota : Account → ℤ) b = L b
  row : taskIsSubscription t = true → ∃ row, st.sub.table.find t.subscriptionId = some row ∧
    t.quota ≤ row.amountUsed ∧ (0 < row.amountTotal → (row.amountUsed : ℤ) ≤ row.amountTotal)

theorem tokenCharge_pool (x : ℤ) {b : Account} (hb : b.isPool = true) : tokenCharge x b = 0 := by
  cases b <;> simp_all [tokenCharge, Account.isPool]

theorem taskAdjustTokenQuota_takes (cfg : Config) (env : Env) (t : Task) (x : ℤ) (st : Store) :
    ∃ y, Takes st (taskAdjustTokenQuota cfg env t x st) (tokenCharge y) := by
  have hrefl : ∃ y, Takes st st (tokenCharge y) := ⟨0, by rw [tokenCharge_zero]; exact Takes.refl st⟩
  unfold taskAdjustTokenQuota
  split
  · exact hrefl
  split
  · rename_i st1 hop
    split at hop
    · exact ⟨x, decreaseTokenQuota_takes hop⟩
    · exact ⟨_, increaseTokenQuota_takes hop⟩
  · exact hrefl

theorem TaskHolds.token (h : TaskHolds t st L) (cfg : Config) (env : Env) (t' : Task) (x : ℤ) :
    TaskHolds t (taskAdjustTokenQuota cfg env t' x st) L := by
  obtain ⟨y, htakes⟩ := taskAdjustTokenQuota_takes cfg env t' x st
  refine ⟨h.nonneg, fun b hb => ?_, ?_⟩
  · rw [htakes.level, Pi.sub_apply, tokenCharge_pool y hb, sub_zero]
    exact h.level b hb
  · rw [htakes.sub]
    exact h.row

theorem TaskHolds.adjust {dbErr : Bool} {x : ℤ} (h : TaskHolds t st L) (hne : x ≠ 0)
    (hx : 0 ≤ t.quota + x) (hadj : taskAdjustFunding cfg dbErr t x st = .ok st') :
    TaskHolds { t with quota := t.quota + x } st' L := by
  -- the balance goes down by what the hold goes up
  have hsum : st'.level = st.level - Pi.single (taskAccount t) x → ∀ b : Account, b.isPool = true →
      st'.level b + (Pi.single (taskAccount t) (t.quota + x) : Account → ℤ) b = L b := by
    intro hlev b hb
    have hb := h.level b hb
    rw [hlev, Pi.single_add, Pi.add_apply, Pi.sub_apply]
    omega
  unfold taskAdjustFunding at hadj
  by_cases hsub : taskIsSubscription t = true
  · rw [if_pos hsub] at hadj
    obtain ⟨sub, hpost, rfl⟩ := map_eq_ok hadj
    obtain ⟨row, hfind, hle, rfl⟩ := postConsume_ok hne hpost
    obtain ⟨row', hfind', hheld, -⟩ := h.row hsub
    rw [hfind] at hfind'
    cases hfind'
    -- the row has used at least what the task holds, so it is not driven below zero
    have hused : (((row.amountUsed + x).toNat : ℕ) : ℤ) = row.amountUsed + x := by omega
    have hid := SubTable.find_id hfind
    have hlev := level_saveUsed hfind hused st.sub.records
    have hacc : taskAccount t = .subscription t.subscriptionId := if_pos hsub
    rw [← hacc] at hlev
    refine ⟨hx, hsum hlev, fun _ => ⟨row.withUsed (row.amountUsed + x).toNat,
      SubTable.find_save_self hfind hid, ?_, ?_⟩⟩
    · rw [withUsed_amountUsed, hused]
      show t.quota + x ≤ _
      omega
    · rw [withUsed_amountUsed, withUsed_amountTotal]
      exact hle
  · rw [if_neg hsub] at hadj
    have hacc : taskAccount t = .wallet := if_neg hsub
    have htakes : Takes st st' (Pi.single (taskAccount t) x) := by
      rw [hacc]
      split at hadj
      · exact decreaseUserQuota_takes hadj
      · simpa using increaseUserQuota_takes hadj
    exact ⟨hx, hsum htakes.level, fun h => absurd h hsub⟩

/-- **A recalculation keeps what the task holds.** -/
theorem recalculate_keeps (h : TaskHolds t st L) :
    TaskHolds (recalculateTaskQuota cfg env t a st).1 (recalculateTaskQuota cfg env t a st).2 L := by
  unfold recalculateTaskQuota
  split_ifs with hgo
  · exact h
  split
  · exact h
  rename_i st1 hadj
  -- the recalculation moves the hold to the actual quota, which is positive
  have hheld := h.adjust (by omega) (by omega) hadj
  rw [add_sub_cancel] at hheld
  exact hheld.token cfg env t _

theorem recalculateAll_keeps {recs : List (Env × ℤ)} (h : TaskHolds t st L) :
    TaskHolds (recalculateAll cfg recs (t, st)).1 (recalculateAll cfg recs (t, st)).2 L := by
  induction recs generalizing t st with
  | nil => exact h
  | cons r recs ih => exact ih (recalculate_keeps h)

theorem taskAdjustFunding_refund (cfg : Config) (h : TaskHolds t st L) :
    ∃ st', taskAdjustFunding cfg false t (-t.quota) st = .ok st' := by
  have hnn := h.nonneg
  unfold taskAdjustFunding
  split_ifs
  · obtain ⟨row, hfind, hheld, htot⟩ := h.row ‹_›
    have hpost : postConsumeUserSubscriptionDelta false t.subscriptionId (-t.quota) st.sub = _ :=
      postConsume_eq hfind (by intro hpos; have := htot hpos; omega)
    exact ⟨_, by rw [Store.postConsume, hpost]; rfl⟩
  · omega
  · rw [neg_neg]
    exact increaseUserQuota_ok cfg st hnn

/-- **A refund restores the pools.** -/
theorem refund_restores (cfg : Config) (henv : env.Succeeds) (h : TaskHolds t st L) :
    (refundTaskQuota cfg env t st).1 = true ∧
      ∀ b : Account, b.isPool = true → (refundTaskQuota cfg env t st).2.2.level b = L b := by
  unfold refundTaskQuota
  rw [henv.funding]
  split_ifs with hzero
  · refine ⟨rfl, fun b hb => ?_⟩
    have := h.level b hb
    rwa [hzero, Pi.single_zero, Pi.zero_apply, add_zero] at this
  obtain ⟨st1, hadj⟩ := taskAdjustFunding_refund cfg h
  -- a refund is the adjustment that leaves the task nothing
  have hheld := (h.adjust (by omega) (by omega) hadj).token cfg env t (-t.quota)
  rw [hadj]
  refine ⟨rfl, fun b hb => ?_⟩
  have := hheld.level b hb
  rwa [add_neg_cancel, Pi.single_zero, Pi.zero_apply, add_zero] at this

/-- The settlement of a submission goes through, on the wallet within the limit of the model or a subscription within
its total. -/
def TaskRefundable (s : BillingSession) (resultQuota : ℤ) (st : SubStore) : Prop :=
  match s.funding with
  | .wallet _ => s.overLimit resultQuota = false
  | .subscription f => ∀ row, st.table.find f.subscriptionId = some row → 0 < row.amountTotal →
      row.amountUsed + (resultQuota - s.preConsumedQuota) ≤ row.amountTotal
  | _ => False

theorem settle_relayInfo (cfg : Config) (env : Env) (a : ℤ) (s : BillingSession) (st : Store) :
    (s.settle cfg env a st).1.relayInfo.billingSource = s.relayInfo.billingSource ∧
      (s.settle cfg env a st).1.relayInfo.subscriptionId = s.relayInfo.subscriptionId := by
  have hlog : ∀ (s1 : BillingSession) x, (s1.logDelta x).billingSource = s1.relayInfo.billingSource ∧
      (s1.logDelta x).subscriptionId = s1.relayInfo.subscriptionId := by
    intro s1 x
    unfold BillingSession.logDelta
    split <;> exact ⟨rfl, rfl⟩
  unfold BillingSession.settle
  split
  · exact ⟨rfl, rfl⟩
  dsimp only
  split_ifs
  · exact ⟨rfl, rfl⟩
  · split
    · exact ⟨rfl, rfl⟩
    · exact hlog { s with fundingSettled := true } _
  · exact hlog s _

theorem settle_subscription_err {err : Err} {row : UserSubscription}
    (henv : env.Succeeds) (hf : s.funding = .subscription f)
    (hfind : st.sub.table.find f.subscriptionId = some row)
    (h : s.settle cfg env a st = (s', st', some err)) :
    0 < row.amountTotal ∧ row.amountTotal < ((row.amountUsed + (a - s.preConsumedQuota)).toNat : ℤ) := by
  by_contra hcon
  have hpost : postConsumeUserSubscriptionDelta false f.subscriptionId (a - s.preConsumedQuota) st.sub = _ :=
    postConsume_eq hfind fun hpos => not_lt.1 fun hlt => hcon ⟨hpos, hlt⟩
  rcases (settle_err henv h).2.2 with hover | ⟨e, hfund⟩
  · simp [BillingSession.overLimit, hf, source] at hover
  unfold settle at hfund
  rw [hf, henv.funding] at hfund
  split at hfund
  · cases hfund
  dsimp only at hfund
  rw [Store.postConsume, hpost] at hfund
  cases hfund

theorem settle_refundable (henv : env.Succeeds) (ho : Open s st)
    (hr : TaskRefundable s a st.sub) : ∃ s' st', s.settle cfg env a st = (s', st', none) := by
  rcases hset : s.settle cfg env a st with ⟨s', st', _ | err⟩
  · exact ⟨s', st', rfl⟩
  exfalso
  unfold TaskRefundable at hr
  cases hf : s.funding with
  | wallet =>
    rw [hf] at hr
    have := settle_wallet_err henv (by rw [hf]; rfl) hset
    rw [hr] at this
    cases this
  | subscription =>
    rw [hf] at hr
    have hpool := ho.pool
    rw [PoolOpen, hf] at hpool
    obtain ⟨hpre, -, hopen⟩ := hpool
    obtain ⟨row, hfind, hused, -⟩ := hopen.row
    -- the pool refused, so the actual quota would exceed the total, against the condition
    obtain ⟨hpos, hlt⟩ := settle_subscription_err henv hf hfind hset
    have hle := hr row hfind hpos
    omega
  | requests | tokens => rw [hf] at hr; exact hr

theorem settle_row (ho : Open s st) (hf : s.funding = .subscription f) (h : s.settle cfg env a st = (s', st', none)) :
    ∃ row, st'.sub.table.find f.subscriptionId = some row ∧ a ≤ row.amountUsed ∧
      (0 < row.amountTotal → (row.amountUsed : ℤ) ≤ row.amountTotal) := by
  obtain ⟨s1, st1, hfund, hf1, hi1, htok⟩ := settle_none ho.settled ho.fundingSettled h
  rw [(settleToken_takes htok).sub]
  have hpool := ho.pool
  rw [PoolOpen, hf] at hpool
  obtain ⟨hpre, -, hopen⟩ := hpool
  obtain ⟨row, hfind, hused, htot⟩ := hopen.row
  unfold settle at hfund
  rw [hf] at hfund
  split at hfund
  · -- the actual quota is the hold
    cases hfund
    exact ⟨row, hfind, by omega, htot⟩
  rename_i hne
  obtain ⟨sub, hpost, rfl⟩ := map_eq_ok hfund
  obtain ⟨row', hfind', hle, rfl⟩ := postConsume_ok hne hpost
  rw [hfind] at hfind'
  cases hfind'
  have hid := SubTable.find_id hfind
  refine ⟨_, SubTable.find_save_self hfind hid, ?_, ?_⟩
  · rw [withUsed_amountUsed]
    omega
  · rw [withUsed_amountUsed, withUsed_amountTotal]
    exact hle

theorem account_of_refundable {e : ℤ} {st0 : Store} (hop : Opening env info src e st0 s st)
    (hr : TaskRefundable s a st.sub) (ht : t.billingSource = s.relayInfo.billingSource)
    (hid : t.subscriptionId = s.relayInfo.subscriptionId) :
    taskAccount t = s.funding.account ∧ s.poolCost a = a ∧ src ≠ .tokens ∧
      (taskIsSubscription t = true → ∃ f, s.funding = .subscription f ∧ t.subscriptionId = f.subscriptionId) := by
  have hsrc := hop.source
  unfold TaskRefundable at hr
  cases hf : s.funding with
  | wallet =>
    rw [hf] at hsrc
    -- the task remembers the source of the session, and adjusts the same account
    have hno : taskIsSubscription t = false := by simp [taskIsSubscription, ht, hop.billingSource, ← hsrc, source]
    refine ⟨by simp [taskAccount, hno, account], ?_, ?_, ?_⟩
    · simp [BillingSession.poolCost, hf]
    · rw [← hsrc]; simp [source]
    · intro h; rw [hno] at h; cases h
  | subscription f =>
    rw [hf] at hsrc
    have hpool := hop.isOpen.pool
    rw [PoolOpen, hf] at hpool
    obtain ⟨-, hsid, hopen⟩ := hpool
    obtain ⟨row, hfind, -⟩ := hopen.row
    have hpos := SubTable.find_pos hfind
    have hyes : taskIsSubscription t = true := by
      simp [taskIsSubscription, ht, hop.billingSource, ← hsrc, source, hid, hsid, hpos]
    refine ⟨by simp [taskAccount, hyes, account, hid, hsid], ?_, ?_, ?_⟩
    · simp [BillingSession.poolCost, hf]
    · rw [← hsrc]; simp [source]
    · intro _; exact ⟨f, rfl, hid.trans hsid⟩
  | requests | tokens => rw [hf] at hr; exact hr.elim

/-- **A submitted task holds what its submission charged.** -/
theorem submit_holds {a e : ℤ} {st0 : Store} (henv : env.Succeeds) (ha : 0 ≤ a)
    {env0 : Env} (hop : Opening env0 info src e st0 s st) (hr : TaskRefundable s a st.sub) (t : Task) :
    TaskHolds (submitTask cfg env s t a st).1 (submitTask cfg env s t a st).2 (s.toHold st).total := by
  obtain ⟨s', st', hset⟩ : ∃ s' st', s.settle cfg env a st = (s', st', none) := settle_refundable henv hop.isOpen hr
  obtain ⟨hsource, hsid⟩ := settle_relayInfo cfg env a s st
  obtain ⟨hacc, hcost, htokens, hsub⟩ := account_of_refundable
    (t := (submitTask cfg env s t a st).1) hop hr hsource hsid
  have hstore : (submitTask cfg env s t a st).2 = st' := by simp [submitTask, hset]
  -- the settlement charged the actual quota and nothing else: the drift is that of the tokens pool
  have hcharge := Ledger.Hold.settle_charge (s.toHold st) (s.cost a)
  rw [← settle_refines hop.isOpen ha hset, hop.drift, tokensDrift, if_neg htokens, Pi.single_zero, add_zero] at hcharge
  rw [hstore]
  refine ⟨ha, fun b hb => ?_, fun h => ?_⟩
  · have hb' := congrFun hcharge b
    have htoken : s.relayInfo.tokenPart a b = 0 := by
      unfold RelayInfo.tokenPart
      split
      · rfl
      · exact tokenCharge_pool a hb
    rw [BillingSession.cost, hcost, Pi.sub_apply, Pi.add_apply, htoken, add_zero, ← hacc] at hb'
    show st'.level b + (Pi.single (taskAccount (submitTask cfg env s t a st).1) a : Account → ℤ) b = _
    omega
  · obtain ⟨f, hf, hid⟩ := hsub h
    rw [hid]
    exact settle_row hop.isOpen hf hset

/-- From `st` to `st'` every pool is as before, but for resets that were due. -/
def PoolsRestored (senv : SubEnv) (st st' : Store) : Prop :=
  ∀ b : Account, b.isPool = true → st'.level b = st.level b ∨ st'.level b = st.levelNow senv b

/-- **A task gives back what it took** from the wallet or a subscription: submission, recalculations and the refund
leave every pool as before. -/
theorem task_gives_back {bs : BillingSetting} {us : UserBillingSetting} {envs : ℕ → Env}
    {clamp : Option QuotaClamp} {env' : Env} {a : ℤ} {recs : List (Env × ℤ)} {t₀ : Task} {st₁ : Store}
    {p : Task × Store} (henvs : ∀ n, (envs n).Succeeds) (hfresh : st.sub.records info.requestId = none)
    (hpre : preConsumeBilling cfg bs us envs clamp info q st = (.ok s, st₁))
    (henv : env.Succeeds) (ha : 0 ≤ a) (hr : TaskRefundable s a st₁.sub)
    (hrun : recalculateAll cfg recs (submitTask cfg env s t₀ a st₁) = p) (henv' : env'.Succeeds) :
    (refundTaskQuota cfg env' p.1 p.2).1 = true ∧
      ∃ n, PoolsRestored (envs n).subEnv st (refundTaskQuota cfg env' p.1 p.2).2.2 := by
  obtain ⟨n, src, info', e, st0, htakes, hop⟩ := preConsumeBilling_opens henvs hfresh hpre
  have hholds : TaskHolds p.1 p.2 (s.toHold st₁).total := by
    rw [← hrun]
    exact recalculateAll_keeps (submit_holds henv ha hop hr t₀)
  obtain ⟨hok, hlevel⟩ := refund_restores cfg henv' hholds
  refine ⟨hok, n, fun b hb => ?_⟩
  have hsame : st0.level b = st.level b := by rw [htakes.level, sub_zero]
  have hnow : st.levelNow (envs n).subEnv b = st0.levelNow (envs n).subEnv b := by
    rw [levelNow_of_takes htakes (fun _ => rfl), Pi.zero_apply, add_zero]
  rw [hlevel b hb, hnow, ← hsame]
  exact hop.total.all b

def openSetting : BillingSetting := ⟨fun _ => true, fun _ _ => true⟩

def taskInfo : RelayInfo := { sampleInfo with forcePreConsume := true }

def sampleTask : Task := initTask 1 "task_1" .suno 1 1 "up_1" "" 1 false 1771718400

theorem task_gives_back_wallet :
    ∃ s st₁, preConsumeBilling sampleCfg openSetting ⟨[], .walletOnly⟩ (fun _ => calmEnv) none taskInfo 5
        sampleStore = (.ok s, st₁) ∧
      (∃ n : ℕ, PoolsRestored ((fun _ => calmEnv) n).subEnv sampleStore
        (refundTaskQuota sampleCfg calmEnv
          (recalculateAll sampleCfg [(calmEnv, 9)] (submitTask sampleCfg calmEnv s sampleTask 7 st₁)).1
          (recalculateAll sampleCfg [(calmEnv, 9)] (submitTask sampleCfg calmEnv s sampleTask 7 st₁)).2).2.2) := by
  obtain ⟨s, st₁, hpre, hr⟩ : ∃ s st₁, preConsumeBilling sampleCfg openSetting ⟨[], .walletOnly⟩
      (fun _ => calmEnv) none taskInfo 5 sampleStore = (.ok s, st₁) ∧ TaskRefundable s 7 st₁.sub :=
    ⟨_, _, rfl, rfl⟩
  exact ⟨s, st₁, hpre, (task_gives_back (fun _ => calmEnv_succeeds) rfl hpre calmEnv_succeeds (by decide)
    hr rfl calmEnv_succeeds).2⟩

/-- A task that fails has cost a request, and the wallet is up by its quota. -/
theorem requests_task_credited_to_wallet :
    ∃ s st₁, preConsumeBilling sampleCfg openSetting ⟨[], .subscriptionFirst⟩ (fun _ => calmEnv) none
        taskInfo 5 sampleStore = (.ok s, st₁) ∧
      (refundTaskQuota sampleCfg calmEnv (submitTask sampleCfg calmEnv s sampleTask 5 st₁).1
        (submitTask sampleCfg calmEnv s sampleTask 5 st₁).2).2.2.requestsBalance = 999 ∧
      (refundTaskQuota sampleCfg calmEnv (submitTask sampleCfg calmEnv s sampleTask 5 st₁).1
        (submitTask sampleCfg calmEnv s sampleTask 5 st₁).2).2.2.walletLevel = 1005 ∧
      ¬ PoolsRestored calmEnv.subEnv sampleStore
        (refundTaskQuota sampleCfg calmEnv (submitTask sampleCfg calmEnv s sampleTask 5 st₁).1
          (submitTask sampleCfg calmEnv s sampleTask 5 st₁).2).2.2 := by
  refine ⟨_, _, rfl, by decide, by decide, fun h => ?_⟩
  have := h .wallet rfl
  revert this
  decide

end NewApi
