import NewApi.Proof.Levels
import NewApi.Ledger.Hold

/-!
# A billing session is a hold

The session of a request as a `Ledger.Hold` over the accounts: the levels are the balance, what the pool and the API
token have given is `held`, and `preConsumedQuota` says what is `recorded`.

* `reserve_err`: a `Reserve` that returns an error changes nothing, if its rollback succeeds.
* `reserve_refines`: a `Reserve` is a take that is recorded as taken.
* `settle_refines`: a `Settle` that returns no error is the settlement of the hold.
* `refund_refines`: the goroutine of a `Refund` gives the hold back.
-/

namespace NewApi

open Funding RelayInfo Ledger.Hold

variable {cfg : Config} {env : Env} {st st' : Store} {s s' : BillingSession} {x : ℤ}

def Funding.account : Funding → Account
  | .wallet _ => .wallet
  | .requests _ => .requests
  | .tokens _ => .tokens
  | .subscription f => .subscription f.subscriptionId

/-- The part of a raise by `x` that falls on the pool; the requests pool is not raised. -/
def Funding.share : Funding → ℤ → ℤ
  | .requests _, _ => 0
  | _, x => x

namespace BillingSession

def owed (s : BillingSession) : ℤ :=
  match s.funding with
  | .wallet consumed => consumed
  | .requests consumed => consumed
  | .tokens consumed => consumed
  | .subscription f => f.preConsumed + s.extraReserved

/-- What a request that costs `a` takes from its pool; the requests pool counts requests. -/
def poolCost (s : BillingSession) (a : ℤ) : ℤ :=
  match s.funding with
  | .requests _ => 1
  | _ => a

def cost (s : BillingSession) (a : ℤ) : Account → ℤ :=
  Pi.single s.funding.account (s.poolCost a) + s.relayInfo.tokenPart a

def held (s : BillingSession) : Account → ℤ :=
  Pi.single s.funding.account s.owed + s.relayInfo.tokenPart s.tokenConsumed

def toHold (s : BillingSession) (st : Store) : Ledger.Hold (Account → ℤ) :=
  ⟨st.level, s.held, s.cost s.preConsumedQuota⟩

end BillingSession

theorem rollback_reserve {f f' : Funding} (hx : 0 < x) (hroll : env.rollbackErr = false)
    (h : f.reserve cfg env x st = .ok (f', st')) : f'.rollback cfg env x st' = (f, st) := by
  -- each pool has its own pair of operations; only the subscription's is not one sum
  unfold reserve at h
  cases f with
  | wallet =>
    obtain ⟨st1, h1, heq⟩ := map_eq_ok h
    cases heq
    have hback : increaseUserQuota cfg env.rollbackErr x st' = .ok st := by
      unfold decreaseUserQuota persistUserQuotaDelta at h1
      unfold increaseUserQuota persistUserQuotaDelta
      rw [if_neg (by omega)] at h1 ⊢
      rw [hroll]
      split_ifs at h1
      · cases h1; simp [‹cfg.batchUpdateEnabled = true›]
      · cases h1; simp [‹¬cfg.batchUpdateEnabled = true›]
    simp [rollback, hback, add_sub_cancel_right]
  | subscription f =>
    obtain ⟨st1, h1, heq⟩ := map_eq_ok h
    cases heq
    obtain ⟨sub, hsub, heq⟩ := map_eq_ok h1
    subst heq
    obtain ⟨row, hfind, hle, rfl⟩ := postConsume_ok (by omega) hsub
    have hid := SubTable.find_id hfind
    -- the row as the raise saved it, then the same row with the raise taken off
    have hfind' := SubTable.find_save_self (s := row.withUsed (row.amountUsed + x).toNat) hfind hid
    have hnat : (((row.amountUsed + x).toNat : ℤ) + -x).toNat = row.amountUsed := by omega
    have hback : postConsumeUserSubscriptionDelta false f.subscriptionId (-x)
        ⟨st.sub.table.save (row.withUsed (row.amountUsed + x).toNat), st.sub.records⟩ = _ :=
      postConsume_eq hfind' (fun htot => by
        have := hle htot
        rw [UserSubscription.withUsed_amountUsed, UserSubscription.withUsed_amountTotal]
        omega)
    have hrow : st.sub.table.save row = st.sub.table := SubTable.save_find (by rw [hid]; exact hfind)
    rw [UserSubscription.withUsed_withUsed, UserSubscription.withUsed_amountUsed, hnat,
      UserSubscription.withUsed_self, SubTable.save_save (UserSubscription.withUsed_id _ _), hrow] at hback
    simp [rollback, Store.postConsume, hroll, hback, Except.map]
  | requests =>
    cases h
    rfl
  | tokens =>
    obtain ⟨st1, h1, heq⟩ := map_eq_ok h
    cases heq
    have hback : increaseUserTokens env.rollbackErr x st' = .ok st := by
      unfold decreaseUserTokens at h1
      unfold increaseUserTokens
      rw [if_neg (by omega)] at h1 ⊢
      rw [hroll]
      split at h1
      · cases h1
      · cases h1; simp
    simp [rollback, hback, add_sub_cancel_right]

/-- What a `Reserve` can do: nothing, fail before the API token, fail at it and roll the pool back, or raise the hold.
-/
theorem reserve_cases {e : Option Err} (h : s.reserve cfg env x st = (s', st', e)) : (s' = s ∧ st' = st) ∨
    (∃ f st1 err, 0 < x - s.preConsumedQuota ∧
      s.funding.reserve cfg env (x - s.preConsumedQuota) st = .ok (f, st1) ∧ e = some err ∧
      s' = { s with funding := (f.rollback cfg env (x - s.preConsumedQuota) st1).1 } ∧
      st' = (f.rollback cfg env (x - s.preConsumedQuota) st1).2) ∨
    (∃ f st1, 0 < x - s.preConsumedQuota ∧ e = none ∧ s.settled = false ∧ s.refunded = false ∧
      s.funding.reserve cfg env (x - s.preConsumedQuota) st = .ok (f, st1) ∧
      s.reserveToken cfg env (x - s.preConsumedQuota) st1 = .ok st' ∧
      s' = (s.raised f (x - s.preConsumedQuota)).syncRelayInfo) := by
  unfold BillingSession.reserve at h
  split at h
  · cases h; exact .inl ⟨rfl, rfl⟩
  rename_i hgo
  -- past the guard the target exceeds what is held, so the raise is positive
  simp only [Bool.or_eq_true, not_or, decide_eq_true_eq, Bool.not_eq_true] at hgo
  split at h
  · cases h; exact .inl ⟨rfl, rfl⟩
  dsimp only at h
  split at h
  · cases h; exact .inl ⟨rfl, rfl⟩
  rename_i f st1 hres
  split at h
  · cases h
    exact .inr (.inl ⟨f, st1, _, by omega, hres, rfl, rfl, rfl⟩)
  · cases h
    exact .inr (.inr ⟨f, st1, by omega, rfl, hgo.1.1.1, hgo.1.1.2, hres, ‹_›, rfl⟩)

theorem reserve_err {err : Err} (hroll : env.rollbackErr = false)
    (h : s.reserve cfg env x st = (s', st', some err)) : s' = s ∧ st' = st := by
  obtain hsame | ⟨f, st1, err', hpos, hres, -, rfl, rfl⟩ | ⟨_, _, _, he, _⟩ := reserve_cases h
  · exact hsame
  · rw [rollback_reserve hpos hroll hres]
    exact ⟨rfl, rfl⟩
  · cases he

structure SubOpen (f : SubscriptionFunding) (extra : ℤ) (st : SubStore) : Prop where
  notBlank : isBlank f.requestId = false
  record : st.records f.requestId = some ⟨f.subscriptionId, f.preConsumed, false⟩
  pos : 0 < f.preConsumed
  row : ∃ sub, st.table.find f.subscriptionId = some sub ∧ f.preConsumed + extra ≤ sub.amountUsed ∧
    (0 < sub.amountTotal → (sub.amountUsed : ℤ) ≤ sub.amountTotal)

def PoolOpen (s : BillingSession) (st : SubStore) : Prop :=
  match s.funding with
  | .wallet consumed => consumed = s.preConsumedQuota
  | .requests consumed => consumed = 1
  | .tokens consumed => 0 < consumed
  | .subscription f =>
    s.preConsumedQuota = f.preConsumed + s.extraReserved ∧
      s.relayInfo.subscriptionId = f.subscriptionId ∧ SubOpen f s.extraReserved st

structure Open (s : BillingSession) (st : Store) : Prop where
  settled : s.settled = false
  refunded : s.refunded = false
  fundingSettled : s.fundingSettled = false
  token : s.tokenConsumed = s.preConsumedQuota
  nonneg : 0 ≤ s.preConsumedQuota
  extra : 0 ≤ s.extraReserved
  pool : PoolOpen s st.sub

theorem syncRelayInfo_eq (s : BillingSession) : ∃ info, s.syncRelayInfo = { s with relayInfo := info } ∧
      info.isPlayground = s.relayInfo.isPlayground ∧ info.billingSource = some s.funding.source ∧
      ∀ f, s.funding = .subscription f → info.subscriptionId = f.subscriptionId := by
  unfold BillingSession.syncRelayInfo
  split
  · rename_i f hf
    refine ⟨_, rfl, rfl, rfl, ?_⟩
    intro f' hf'
    rw [hf] at hf'
    cases hf'
    rfl
  · rename_i hf
    exact ⟨_, rfl, rfl, rfl, fun f' hf' => absurd hf' (hf f')⟩

theorem reserve_level {f f' : Funding} (hx : 0 < x) (h : f.reserve cfg env x st = .ok (f', st')) :
    f'.account = f.account ∧ f'.source = f.source ∧ st'.level = st.level - Pi.single f.account (f.share x) := by
  cases f with
  | wallet =>
    obtain ⟨st1, h1, heq⟩ := map_eq_ok h
    cases heq
    exact ⟨rfl, rfl, (decreaseUserQuota_takes h1).level⟩
  | subscription =>
    obtain ⟨st1, h1, heq⟩ := map_eq_ok h
    cases heq
    obtain ⟨sub, hsub, heq⟩ := map_eq_ok h1
    subst heq
    obtain ⟨row, hfind, hle, rfl⟩ := postConsume_ok (by omega) hsub
    exact ⟨rfl, rfl, level_saveUsed (x := x) hfind (by omega) _⟩
  | requests =>
    cases h
    exact ⟨rfl, rfl, by rw [share, Pi.single_zero, sub_zero]⟩
  | tokens =>
    obtain ⟨st1, h1, heq⟩ := map_eq_ok h
    cases heq
    exact ⟨rfl, rfl, (decreaseUserTokens_takes h1 hx.le).level⟩

theorem reserve_pool {f : Funding} (hx : 0 < x) (hp : PoolOpen s st.sub)
    (h : s.funding.reserve cfg env x st = .ok (f, st')) {info : RelayInfo}
    (hinfo : ∀ g, f = .subscription g → info.subscriptionId = g.subscriptionId) :
    PoolOpen { s.raised f x with relayInfo := info } st'.sub ∧ (s.raised f x).owed = s.owed + s.funding.share x := by
  unfold Funding.reserve at h
  unfold PoolOpen at hp
  cases hf : s.funding with
  | wallet c =>
    rw [hf] at h hp
    obtain ⟨st1, h1, heq⟩ := map_eq_ok h
    cases heq
    refine ⟨?_, ?_⟩
    · show c + x = s.preConsumedQuota + x
      rw [hp]
    · simp [BillingSession.raised, BillingSession.owed, hf, share]
  | subscription g =>
    rw [hf] at h hp
    obtain ⟨st1, h1, heq⟩ := map_eq_ok h
    cases heq
    obtain ⟨sub, hsub, heq⟩ := map_eq_ok h1
    subst heq
    obtain ⟨row, hfind, hle, rfl⟩ := postConsume_ok (by omega) hsub
    -- the row of the invariant is the row that the raise found
    obtain ⟨hpre, -, hopen⟩ := hp
    obtain ⟨row', hrow', hge, -⟩ := hopen.row
    rw [hfind] at hrow'
    cases hrow'
    refine ⟨⟨?_, hinfo g rfl, hopen.notBlank, hopen.record, hopen.pos, ?_⟩, ?_⟩
    · show s.preConsumedQuota + x = g.preConsumed + (s.extraReserved + x)
      omega
    · refine ⟨_, SubTable.find_save_self hfind (SubTable.find_id (s := row) hfind), ?_, ?_⟩
      · show g.preConsumed + (s.extraReserved + x) ≤ ((row.amountUsed + x).toNat : ℤ)
        omega
      · exact hle
    · simp only [BillingSession.raised, BillingSession.owed, hf, share]
      omega
  | requests =>
    rw [hf] at h hp
    cases h
    refine ⟨hp, ?_⟩
    simp [BillingSession.raised, BillingSession.owed, hf, share]
  | tokens c =>
    rw [hf] at h hp
    obtain ⟨st1, h1, heq⟩ := map_eq_ok h
    cases heq
    refine ⟨?_, ?_⟩
    · show 0 < c + x
      omega
    · simp [BillingSession.raised, BillingSession.owed, hf, share]

structure Same (s s' : BillingSession) : Prop where
  account : s'.funding.account = s.funding.account
  source : s'.funding.source = s.funding.source
  playground : s'.relayInfo.isPlayground = s.relayInfo.isPlayground

theorem Same.refl (s : BillingSession) : Same s s := ⟨rfl, rfl, rfl⟩

theorem Same.trans {s1 s2 s3 : BillingSession} (h : Same s1 s2) (h' : Same s2 s3) : Same s1 s3 :=
  ⟨h'.account.trans h.account, h'.source.trans h.source, h'.playground.trans h.playground⟩

theorem tokenPart_add (info : RelayInfo) (x y : ℤ) : info.tokenPart (x + y) = info.tokenPart x + info.tokenPart y := by
  unfold tokenPart
  split
  · rw [add_zero]
  · exact tokenCharge_add x y

@[simp] theorem tokenPart_zero (info : RelayInfo) : info.tokenPart 0 = 0 := by simp [tokenPart]

theorem tokenPart_congr {info info' : RelayInfo} (h : info'.isPlayground = info.isPlayground) :
    info'.tokenPart = info.tokenPart := by
  unfold tokenPart
  rw [h]

theorem poolCost_congr (h : s'.funding.source = s.funding.source) (a : ℤ) : s'.poolCost a = s.poolCost a := by
  unfold BillingSession.poolCost
  cases hs : s.funding <;> cases hs' : s'.funding <;> rw [hs, hs'] at h <;>
    simp [source] at h ⊢

theorem cost_congr (h : Same s s') (a : ℤ) : s'.cost a = s.cost a := by
  unfold BillingSession.cost
  rw [h.account, poolCost_congr h.source, tokenPart_congr h.playground]

theorem cost_add (s : BillingSession) (a x : ℤ) :
    s.cost (a + x) = s.cost a + (Pi.single s.funding.account (s.funding.share x) + s.relayInfo.tokenPart x) := by
  have hpool : s.poolCost (a + x) = s.poolCost a + s.funding.share x := by
    unfold BillingSession.poolCost
    cases s.funding <;> simp [share]
  unfold BillingSession.cost
  rw [hpool, Pi.single_add, tokenPart_add]
  abel

theorem reserveToken_takes (hx : 0 < x) (h : s.reserveToken cfg env x st = .ok st') :
    Takes st st' (s.relayInfo.tokenPart x) := by
  unfold BillingSession.reserveToken at h
  split_ifs at h with hcase
  · cases h
    have hplay : s.relayInfo.isPlayground = true := hcase.resolve_left (by omega)
    rw [tokenPart, if_pos hplay]
    exact Takes.refl st
  · exact preConsumeTokenQuota_takes h

theorem reserve_refines {e : Option Err} (ho : Open s st) (hroll : env.rollbackErr = false)
    (h : s.reserve cfg env x st = (s', st', e)) :
    Open s' st' ∧ Same s s' ∧ ∃ v, s'.toHold st' = (s.toHold st).take ⟨v, v⟩ := by
  obtain ⟨rfl, rfl⟩ | ⟨f, st1, err, hpos, hres, -, rfl, rfl⟩ | ⟨f, st1, hpos, -, -, -, hres, htok, rfl⟩ :=
    reserve_cases h
  · exact ⟨ho, Same.refl _, 0, (take_zero _).symm⟩
  · rw [rollback_reserve hpos hroll hres]
    exact ⟨ho, Same.refl _, 0, (take_zero _).symm⟩
  -- the pool gives its share, the API token its part, and both are recorded
  set δ := x - s.preConsumedQuota with hδ
  obtain ⟨info, hsync, hplay, -, hinfo⟩ := syncRelayInfo_eq (s.raised f δ)
  rw [hsync]
  obtain ⟨hacc, hsrc, hlev⟩ := reserve_level hpos hres
  have htakes := reserveToken_takes hpos htok
  obtain ⟨hpool, howed⟩ := reserve_pool hpos ho.pool hres hinfo
  have hsame : Same s { s.raised f δ with relayInfo := info } := ⟨hacc, hsrc, hplay⟩
  refine ⟨⟨ho.settled, ho.refunded, ho.fundingSettled, ?_, ?_, ?_, ?_⟩, hsame,
    Pi.single s.funding.account (s.funding.share δ) + s.relayInfo.tokenPart δ, ?_⟩
  · show s.tokenConsumed + δ = s.preConsumedQuota + δ
    rw [ho.token]
  · have := ho.nonneg
    show 0 ≤ s.preConsumedQuota + δ
    omega
  · have := ho.extra
    show 0 ≤ s.extraReserved + δ
    omega
  · rw [htakes.sub]
    exact hpool
  unfold BillingSession.toHold take
  congr 1
  · rw [htakes.level, hlev, sub_sub]
  · show Pi.single f.account (s.raised f δ).owed + info.tokenPart (s.tokenConsumed + δ) = s.held + _
    rw [howed, hacc, tokenPart_congr hplay, Pi.single_add, tokenPart_add, BillingSession.held]
    simp only [BillingSession.raised]
    abel
  · rw [cost_congr hsame]
    exact cost_add s _ _

theorem adjustToken_takes {δ : ℤ} (h : (s.adjustToken cfg env δ st).2 = none) :
    Takes st (s.adjustToken cfg env δ st).1 (s.relayInfo.tokenPart δ) := by
  unfold BillingSession.adjustToken at h ⊢
  split
  · rename_i hgo
    have hpart : s.relayInfo.tokenPart δ = tokenCharge δ := by simp [tokenPart, hgo.2]
    rw [if_pos hgo] at h
    rw [hpart]
    cases hop : (if 0 < δ then decreaseTokenQuota cfg env.tokenErr δ st
      else increaseTokenQuota cfg env.tokenErr (-δ) st) with
    | error e => rw [hop] at h; cases h
    | ok st' =>
      split at hop
      · exact decreaseTokenQuota_takes hop
      · simpa using increaseTokenQuota_takes hop
  · rename_i hgo
    -- a playground request, or nothing to adjust
    have hzero : s.relayInfo.tokenPart δ = 0 := by
      by_cases hplay : s.relayInfo.isPlayground = true
      · rw [tokenPart, if_pos hplay]
      have : δ = 0 := by
        by_contra hne
        exact hgo ⟨hne, by simpa using hplay⟩
      rw [this, tokenPart_zero]
    rw [hzero]
    exact Takes.refl st

theorem deductPackage_takes (cfg : Config) (env : Env) (a : ℤ) (s : BillingSession) (st : Store) :
    Takes st (s.deductPackage cfg env a st) 0 := by
  unfold BillingSession.deductPackage
  split
  · exact deductUserBalancePackage_takes ..
  · exact deductUserBalancePackage_takes ..
  · exact deductUserBalancePackage_takes ..
  · exact Takes.refl st

theorem settleToken_takes {a δ : ℤ} (h : s.settleToken cfg env a δ st = (s', st', none)) :
    Takes st st' (s.relayInfo.tokenPart δ) := by
  unfold BillingSession.settleToken at h
  obtain ⟨-, rfl, hnone⟩ : _ ∧ _ ∧ _ := by simpa only [Prod.mk.injEq] using h
  simpa using (adjustToken_takes hnone).trans (deductPackage_takes cfg env a s _)

theorem fundingSettle_level {f : Funding} {δ : ℤ}
    (hsub : ∀ g row, f = .subscription g → st.sub.table.find g.subscriptionId = some row → 0 ≤ row.amountUsed + δ)
    (h : f.settle cfg env δ st = .ok st') : st'.level = st.level - Pi.single f.account (f.share δ) := by
  unfold Funding.settle at h
  split at h
  · cases h
    subst ‹δ = 0›
    cases f <;> simp [share]
  rename_i hδ
  cases f with
  | wallet =>
    dsimp only at h
    split at h
    · exact (decreaseUserQuota_takes h).level
    · have := (increaseUserQuota_takes h).level
      rwa [neg_neg] at this
  | subscription g =>
    obtain ⟨sub, hpost, heq⟩ := map_eq_ok h
    subst heq
    obtain ⟨row, hfind, hle, rfl⟩ := postConsume_ok hδ hpost
    have hnn := hsub g row rfl hfind
    exact level_saveUsed (x := δ) hfind (by omega) _
  | requests =>
    cases h
    rw [share, Pi.single_zero, sub_zero]
  | tokens =>
    dsimp only at h
    split at h
    · exact (decreaseUserTokens_takes h (by omega)).level
    · have := (increaseUserTokens_takes h (by omega)).level
      rwa [neg_neg] at this

theorem settle_none {a : ℤ} (hs : s.settled = false) (hf : s.fundingSettled = false)
    (h : s.settle cfg env a st = (s', st', none)) :
    ∃ (s1 : BillingSession) (st1 : Store), s.funding.settle cfg env (a - s.preConsumedQuota) st = .ok st1 ∧
      s1.funding = s.funding ∧ s1.relayInfo = s.relayInfo ∧
      s1.settleToken cfg env a (a - s.preConsumedQuota) st1 = (s', st', none) := by
  unfold BillingSession.settle at h
  rw [hs, if_neg (by decide)] at h
  dsimp only at h
  split_ifs at h with _ hδ
  · cases h
  · split at h
    · cases h
    · refine ⟨_, _, ‹_›, ?_, ?_, h⟩ <;> rfl
  -- the pool is skipped, and a delta of zero would have left it alone
  have hzero : a - s.preConsumedQuota = 0 := by
    by_contra hne
    exact hδ ⟨hne, hf⟩
  refine ⟨s, st, ?_, rfl, rfl, h⟩
  unfold Funding.settle
  rw [hzero, if_pos rfl]

theorem settle_refines {a : ℤ} (ho : Open s st) (ha : 0 ≤ a) (h : s.settle cfg env a st = (s', st', none)) :
    st'.level = ((s.toHold st).settle (s.cost a)).balance := by
  obtain ⟨s1, st1, hfund, hf1, hi1, htok⟩ := settle_none ho.settled ho.fundingSettled h
  have hlev := fundingSettle_level (fun g row hg hfind => by
    -- an open subscription has used at least what the session took from it
    have hp := ho.pool
    rw [PoolOpen, hg] at hp
    obtain ⟨hpre, -, hopen⟩ := hp
    obtain ⟨row', hrow', hge, -⟩ := hopen.row
    rw [hfind] at hrow'
    cases hrow'
    omega) hfund
  have htakes := settleToken_takes htok
  rw [hi1] at htakes
  have hcost : s.cost a = s.cost s.preConsumedQuota +
      (Pi.single s.funding.account (s.funding.share (a - s.preConsumedQuota)) +
        s.relayInfo.tokenPart (a - s.preConsumedQuota)) := by
    rw [← cost_add]
    congr 1
    omega
  show st'.level = st.level - (s.cost a - s.cost s.preConsumedQuota)
  rw [htakes.level, hlev, hcost]
  abel

end NewApi
