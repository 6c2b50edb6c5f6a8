import NewApi.Proof.SubscriptionBounds
import NewApi.Proof.Packages
import NewApi.Spec.SubscriptionOrder

/-!
# Orders and purchase limits

`SaleStep` says once what a statement can do. A call that has locked the row of a user keeps the subscriptions of that
user to itself, and one that has locked an order its row (`Spares`). From these, the limit of a plan, at most one
subscription for an order and the wallet of a failed purchase hold for every interleaving (`sales_keep_limits`).

A purchase reads the wallet and not the redemption packages in it, so it spends money that is restricted to certain
models (`packages_covered_iff`, `restricted_money_buys_plan`).
-/

namespace NewApi

open Trace Function SaleDB Option Program Bool List SaleWorld

variable {w : SaleWorld} {now : ℤ} {op : SaleOp} {sale : Sale} {db db' : SaleDB} {userId planId : ℕ}

theorem SubRows.countP_insert (t : SubRows) (r : SubRow) (p : ℕ × SubRow → Bool) :
    (t.insert r).entries.countP p = t.entries.countP p + if p (t.nextId, r) then 1 else 0 := by
  have hold : ∀ i ∈ range t.nextId, ((t.insert r).row i).map (i, ·) = (t.row i).map (i, ·) := by
    intro i hi
    have hne : i ≠ t.nextId := (mem_range.1 hi).ne
    simp [insert, update_of_ne hne]
  have hentries : (t.insert r).entries = t.entries ++ [(t.nextId, r)] := by
    unfold entries
    rw [show (t.insert r).nextId = t.nextId + 1 from rfl, range_succ, filterMap_append, filterMap_congr hold]
    simp [insert]
  rw [hentries, countP_append, countP_singleton]

theorem SubDB.addUserSubscription_ok {cal : PlanCalendar} {sub sub' : SubDB} {plan : PlanRow}
    (h : sub.addUserSubscription cal now userId planId plan = .ok sub') :
    ∃ r, sub'.subs = sub.subs.insert r ∧ r.userId = userId ∧ r.planId = planId := by
  unfold addUserSubscription at h
  split at h
  · cases h
  · cases h
    exact ⟨_, rfl, rfl, rfl⟩

def SaleOp.tradeNo : SaleOp → Option String
  | .complete tradeNo _ _ _ => some tradeNo
  | .purchase _ _ tradeNo => some tradeNo
  | .bind _ _ => none

def SaleOp.expects : SaleOp → PaymentProvider
  | .complete _ _ expectedPaymentProvider _ => expectedPaymentProvider
  | _ => .unset

structure SaleOpen (w : SaleWorld) (op : SaleOp) (db : SaleDB) (sale : Sale) : Prop where
  plan : w.planById sale.planId = .ok sale.plan
  order : ∀ tradeNo, op.lockedOrder = some tradeNo → ∃ order, sale.order = some order ∧
    db.orders tradeNo = some order ∧ order.status = .pending ∧
      (op.expects ≠ .unset → order.paymentProvider = op.expects)

variable {tradeNo : String} {order : SubscriptionOrder}

theorem SaleDB.openOrder_ok {expected : PaymentProvider} (h : db.openOrder w tradeNo expected = .ok (some sale)) :
    w.planById sale.planId = .ok sale.plan ∧ ∃ order, sale.order = some order ∧
      db.orders tradeNo = some order ∧ order.status = .pending ∧
        (expected ≠ .unset → order.paymentProvider = expected) := by
  unfold openOrder at h
  split at h
  · cases h
  rename_i order horder
  split at h
  · cases h
  rename_i hprovider
  split at h
  · cases h
  split_ifs at h with hpending
  split at h
  · cases h
  rename_i plan hplan
  obtain rfl := some.inj (Except.ok.inj h)
  refine ⟨hplan, order, rfl, horder, not_not.1 hpending, ?_⟩
  intro hne
  by_contra hother
  exact hprovider ⟨hne, hother⟩

theorem SaleWorld.price_ok (h : w.price userId planId = .ok sale) :
    sale.userId = userId ∧ w.planById sale.planId = .ok sale.plan := by
  unfold price at h
  split at h
  · cases h
  split at h
  · cases h
  rename_i plan hplan
  split_ifs at h
  split at h
  · cases h
  · cases h
    exact ⟨rfl, hplan⟩

theorem SaleDB.start_ok (h : db.start w op = .ok (some sale)) : SaleOpen w op db sale := by
  cases op with
  | complete =>
    simp only [start] at h
    split at h
    · cases h
    obtain ⟨hplan, horder⟩ := openOrder_ok h
    refine ⟨hplan, ?_⟩
    rintro _ ⟨⟩
    exact horder
  | purchase =>
    obtain ⟨_, hprice, hsale⟩ := map_eq_ok h
    cases hsale
    exact ⟨(price_ok hprice).2, fun _ => nofun⟩
  | bind =>
    simp only [start] at h
    split at h
    · cases h
    obtain ⟨plan, hplan, hsale⟩ := map_eq_ok h
    cases hsale
    exact ⟨hplan, fun _ => nofun⟩

structure Committed (op : SaleOp) (sale : Sale) (db db' : SaleDB) : Prop where
  subs : ∃ r, db'.sub.subs = db.sub.subs.insert r ∧ r.userId = sale.userId ∧ r.planId = sale.planId
  packages : db'.packages = db.packages
  /-- no order changes that was there, but the one of a completion -/
  orders : ∀ tradeNo order, db.orders tradeNo = some order → op.lockedOrder ≠ some tradeNo →
    db'.orders tradeNo = some order
  /-- the order of the call has not succeeded before -/
  unsold : ∀ tradeNo order, op.tradeNo = some tradeNo → db.orders tradeNo = some order → order.status = .pending
  sold : ∀ tradeNo, op.tradeNo = some tradeNo → ∃ order, db'.orders tradeNo = some order ∧ order.status = .success

theorem SaleDB.commit_ok (hopen : SaleOpen w op db sale) (h : db.commit w now op sale = .ok db') :
    Committed op sale db db' := by
  unfold commit at h
  split at h
  · cases h
  rename_i sub hsub
  have hsubs := SubDB.addUserSubscription_ok hsub
  cases op with
  | complete tradeNo =>
    obtain ⟨order, hsale, horder, hpending, -⟩ := hopen.order tradeNo rfl
    rw [hsale] at h
    simp only at h
    obtain ⟨topUp, -, rfl⟩ := map_eq_ok h
    refine ⟨hsubs, rfl, ?_, ?_, ?_⟩
    · intro t o ho hne
      have ht : t ≠ tradeNo := fun heq => hne (congrArg some heq.symm)
      simp only [update_of_ne ht]
      exact ho
    · rintro _ o ⟨⟩ ho
      rw [horder] at ho
      exact some.inj ho ▸ hpending
    · rintro _ ⟨⟩
      exact ⟨_, update_self .., rfl⟩
  | purchase userId planId tradeNo =>
    simp only at h
    split_ifs at h with hnew
    rw [not_isSome_iff_eq_none] at hnew
    cases h
    refine ⟨hsubs, rfl, ?_, ?_, ?_⟩
    · intro t o ho _
      have ht : t ≠ tradeNo := by
        rintro rfl
        rw [hnew] at ho
        cases ho
      simp only [update_of_ne ht]
      exact ho
    · rintro _ o ⟨⟩ ho
      rw [hnew] at ho
      cases ho
    · rintro _ ⟨⟩
      exact ⟨_, update_self .., rfl⟩
  | bind =>
    cases h
    exact ⟨hsubs, rfl, fun _ _ ho _ => ho, fun _ _ => nofun, fun _ => nofun⟩

theorem SaleOp.tradeNo_of_locked (h : op.lockedOrder = some tradeNo) : op.tradeNo = some tradeNo := by
  cases op with
  | complete => exact h
  | purchase | bind => cases h

theorem Committed.kept (h : Committed op sale db db')
    (horder : db.orders tradeNo = some order) (hsold : order.status = .success) :
    db'.orders tradeNo = some order := by
  apply h.orders tradeNo order horder
  intro hop
  have hpending := h.unsold tradeNo order (SaleOp.tradeNo_of_locked hop) horder
  rw [hsold] at hpending
  cases hpending

theorem Committed.purchases (h : Committed op sale db db') (userId planId : ℕ) : db'.sub.purchases userId planId =
      db.sub.purchases userId planId + if sale.userId = userId ∧ sale.planId = planId then 1 else 0 := by
  obtain ⟨r, hsubs, huser, hplan⟩ := h.subs
  unfold SubDB.purchases
  rw [hsubs, SubRows.countP_insert]
  simp [huser, hplan]

section Statements

variable {ι : Type} [DecidableEq ι] {ops : ι → SaleOp} {i j : ι} {e : SaleEnv} {p p' : SalePhase} {m m' : SaleMem ι}

inductive SaleStep (w : SaleWorld) (ops : ι → SaleOp) (i : ι) (e : SaleEnv) (m : SaleMem ι) :
    SalePhase → SalePhase → SaleMem ι → Prop
  | opened {sale : Sale} (hfree : ∀ tradeNo, (ops i).lockedOrder = some tradeNo → m.orderLock tradeNo = none)
      (hstart : m.db.start w (ops i) = .ok (some sale)) {locks}
      (hlocks : ∀ tradeNo, locks tradeNo =
        if (ops i).lockedOrder = some tradeNo then some i else m.orderLock tradeNo) :
      SaleStep w ops i e m .idle (.planned sale) { m with orderLock := locks }
  | locked {sale : Sale} (hfree : m.userLock sale.userId = none) :
      SaleStep w ops i e m (.planned sale) (.holding sale)
        { m with userLock := Function.update m.userLock sale.userId (some i) }
  | counted {sale : Sale} (hroom : m.db.checkLimit sale = none) :
      SaleStep w ops i e m (.holding sale) (.counted sale) m
  | committed {sale : Sale} {db} (hcommit : m.db.commit w e.now (ops i) sale = .ok db) :
      SaleStep w ops i e m (.counted sale) (.done (.ok true)) ({ m with db }.release i)
  | ended {p : SalePhase} {r} (hr : r ≠ .ok true) (hp : ∀ r', p ≠ .done r') :
      SaleStep w ops i e m p (.done r) (m.release i)

theorem SaleStep.of_ended {r : Except OrderErr Bool} (h : some (SalePhase.done r, m.release i) = some (p', m'))
    (hr : r ≠ .ok true) (hp : ∀ r', p ≠ .done r') : SaleStep w ops i e m p p' m' := by
  cases h
  exact .ended hr hp

theorem saleStmt_step (h : saleStmt w ops i e p m = some (p', m')) : SaleStep w ops i e m p p' m' := by
  cases p with
  | idle =>
    simp only [saleStmt] at h
    split_ifs at h with _ hfree
    · exact .of_ended h nofun nofun
    rw [not_isSome_iff_eq_none] at hfree
    simp only [SaleMem.begin, some.injEq] at h
    split at h
    · cases h
      exact .ended nofun nofun
    · cases h
      exact .ended nofun nofun
    rename_i sale hstart
    cases h
    refine .opened ?_ hstart ?_
    · intro tradeNo hop
      rw [hop] at hfree
      exact hfree
    intro tradeNo
    cases hop : (ops i).lockedOrder with
    | none => rfl
    | some =>
      simp only [update_apply, some.injEq]
      simp [eq_comm]
  | planned sale =>
    simp only [saleStmt] at h
    split_ifs at h with _ hfree
    · exact .of_ended h nofun nofun
    rw [not_isSome_iff_eq_none] at hfree
    split at h
    · exact .of_ended h nofun nofun
    · cases h
      exact .locked hfree
  | holding sale =>
    simp only [saleStmt] at h
    split at h
    · exact .of_ended h nofun nofun
    split at h
    · exact .of_ended h nofun nofun
    rename_i hroom
    cases h
    exact .counted hroom
  | counted sale =>
    simp only [saleStmt] at h
    split at h
    · exact .of_ended h nofun nofun
    split at h
    · exact .of_ended h nofun nofun
    rename_i db hcommit
    cases h
    exact .committed hcommit
  | done => cases h

structure Spares (j : ι) (m m' : SaleMem ι) : Prop where
  orderLock : ∀ tradeNo, m.orderLock tradeNo = some j → m'.orderLock tradeNo = some j
  userLock : ∀ userId, m.userLock userId = some j → m'.userLock userId = some j
  order : ∀ tradeNo order, m.orderLock tradeNo = some j → m.db.orders tradeNo = some order →
    m'.db.orders tradeNo = some order
  purchases : ∀ userId planId, m.userLock userId = some j →
    m'.db.sub.purchases userId planId = m.db.sub.purchases userId planId

omit [DecidableEq ι] in
theorem Spares.refl (j : ι) (m : SaleMem ι) : Spares j m m :=
  ⟨fun _ h => h, fun _ h => h, fun _ _ _ h => h, fun _ _ _ => rfl⟩

theorem Spares.release (h : Spares j m m') (hne : j ≠ i) : Spares j m (m'.release i) where
  orderLock := by
    intro tradeNo hj
    have hkept := h.orderLock tradeNo hj
    simp [SaleMem.release, hkept, hne]
  userLock := by
    intro userId hj
    have hkept := h.userLock userId hj
    simp [SaleMem.release, hkept, hne]
  order := h.order
  purchases := h.purchases

structure Planned (w : SaleWorld) (op : SaleOp) (i : ι) (m : SaleMem ι) (sale : Sale) : Prop
    extends SaleOpen w op m.db sale where
  lock : ∀ tradeNo, op.lockedOrder = some tradeNo → m.orderLock tradeNo = some i

def SaleFits (w : SaleWorld) (ops : ι → SaleOp) (i : ι) (m : SaleMem ι) : SalePhase → Prop
  | .idle => True
  | .planned sale => Planned w (ops i) i m sale
  | .holding sale => Planned w (ops i) i m sale ∧ m.userLock sale.userId = some i
  | .counted sale => Planned w (ops i) i m sale ∧ m.userLock sale.userId = some i ∧ m.db.checkLimit sale = none
  | .done _ => True

omit [DecidableEq ι] in
theorem Spares.planned (h : Spares j m m') (hplan : Planned w op j m sale) : Planned w op j m' sale := by
  refine ⟨⟨hplan.plan, ?_⟩, fun t ht => h.orderLock t (hplan.lock t ht)⟩
  intro tradeNo hop
  obtain ⟨order, hsale, horder, hrest⟩ := hplan.order tradeNo hop
  exact ⟨order, hsale, h.order tradeNo order (hplan.lock tradeNo hop) horder, hrest⟩

theorem SaleDB.checkLimit_congr (h : db'.sub.purchases sale.userId sale.planId =
    db.sub.purchases sale.userId sale.planId) : db'.checkLimit sale = db.checkLimit sale := by
  unfold checkLimit
  rw [h]

omit [DecidableEq ι] in
theorem Spares.fits (h : Spares j m m') (hfit : SaleFits w ops j m p) : SaleFits w ops j m' p := by
  cases p with
  | idle => trivial
  | planned => exact h.planned hfit
  | holding =>
    obtain ⟨hplan, huser⟩ := hfit
    exact ⟨h.planned hplan, h.userLock _ huser⟩
  | counted =>
    obtain ⟨hplan, huser, hroom⟩ := hfit
    refine ⟨h.planned hplan, h.userLock _ huser, ?_⟩
    rw [checkLimit_congr (h.purchases _ _ huser)]
    exact hroom
  | done => trivial

namespace SaleStep

variable (h : SaleStep w ops i e m p p' m')
include h

section

variable (hfit : SaleFits w ops i m p)
include hfit

theorem spares (hne : j ≠ i) : Spares j m m' := by
  have hij : i ≠ j := hne.symm
  cases h with
  | opened hfree hstart hlocks =>
    refine ⟨?_, fun _ h => h, fun _ _ _ h => h, fun _ _ _ => rfl⟩
    intro tradeNo hj
    simp only [hlocks]
    split_ifs with hop
    · rw [hfree tradeNo hop] at hj
      cases hj
    · exact hj
  | @locked sale hfree =>
    refine ⟨fun _ h => h, ?_, fun _ _ _ h => h, fun _ _ _ => rfl⟩
    intro userId hj
    have hother : userId ≠ sale.userId := by
      rintro rfl
      rw [hfree] at hj
      cases hj
    simp only [update_of_ne hother]
    exact hj
  | counted => exact Spares.refl j m
  | @committed sale db hcommit =>
    obtain ⟨hplan, huser, -⟩ := hfit
    have hc := commit_ok hplan.toSaleOpen hcommit
    apply Spares.release _ hne
    refine ⟨fun _ h => h, fun _ h => h, ?_, ?_⟩
    · intro tradeNo order hj horder
      apply hc.orders tradeNo order horder
      intro hop
      rw [hplan.lock tradeNo hop, some.injEq] at hj
      exact hij hj
    intro userId planId hj
    have hother : sale.userId ≠ userId := by
      rintro rfl
      rw [huser, some.injEq] at hj
      exact hij hj
    rw [hc.purchases, if_neg fun hboth => hother hboth.1, Nat.add_zero]
  | ended => exact (Spares.refl j m).release hne

theorem own : SaleFits w ops i m' p' := by
  cases h with
  | opened hfree hstart hlocks =>
    refine ⟨start_ok hstart, ?_⟩
    intro tradeNo hop
    simp [hlocks, if_pos hop]
  | locked => exact ⟨⟨hfit.toSaleOpen, hfit.lock⟩, update_self ..⟩
  | counted hroom => exact ⟨hfit.1, hfit.2, hroom⟩
  | committed | ended => trivial

theorem db_cases : m'.db = m.db ∨
    ∃ sale, Planned w (ops i) i m sale ∧ m.db.checkLimit sale = none ∧ p' = .done (.ok true) ∧
      Committed (ops i) sale m.db m'.db := by
  cases h with
  | opened | locked | counted | ended => exact .inl rfl
  | @committed sale db hcommit =>
    obtain ⟨hplan, -, hroom⟩ := hfit
    exact .inr ⟨sale, hplan, hroom, rfl, commit_ok hplan.toSaleOpen hcommit⟩

end

end SaleStep

theorem Committed.withinLimit {plan : SalePlan} (h : Committed op sale db db')
    (hopen : SaleOpen w op db sale) (hroom : db.checkLimit sale = none) (hplan : w.planById planId = .ok plan)
    (hpos : 0 < plan.maxPurchasePerUser) (hlimit : db.sub.purchases userId planId ≤ plan.maxPurchasePerUser) :
    db'.sub.purchases userId planId ≤ plan.maxPurchasePerUser := by
  rw [h.purchases]
  split_ifs with hsame
  · obtain ⟨rfl, rfl⟩ := hsame
    have heq : sale.plan = plan := Except.ok.inj (hopen.plan.symm.trans hplan)
    -- the count that the call made is still the count
    have hlt : db.sub.purchases sale.userId sale.planId < plan.maxPurchasePerUser := by
      by_contra hge
      unfold checkLimit at hroom
      rw [heq] at hroom
      split at hroom
      · cases hroom
      split at hroom
      · cases hroom
      rw [if_pos ⟨hpos, not_lt.1 hge⟩] at hroom
      cases hroom
    push_cast
    omega
  · exact hlimit

omit [DecidableEq ι] in
theorem OrderMove.apply_cases (v : OrderMove) (m : SaleMem ι) : v.apply m = m ∨ ∃ tradeNo order,
    v.apply m = { m with db := { m.db with orders := update m.db.orders tradeNo (some order) } } ∧
      ∀ order', m.db.orders tradeNo = some order' → m.orderLock tradeNo = none ∧ order'.status = .pending := by
  cases v with
  | place tradeNo order =>
    simp only [apply]
    split_ifs with hnew
    · exact .inl rfl
    rw [not_isSome_iff_eq_none] at hnew
    refine .inr ⟨tradeNo, _, rfl, ?_⟩
    intro order' horder
    rw [hnew] at horder
    cases horder
  | expire tradeNo expected now =>
    simp only [apply, expireSubscriptionOrder]
    split
    · exact .inl rfl
    rename_i hfree
    rw [not_isSome_iff_eq_none] at hfree
    split_ifs with hempty
    · exact .inl rfl
    cases horder : m.db.orders tradeNo with
    | none => exact .inl rfl
    | some order =>
      simp only
      split_ifs with _ hclosed
      · exact .inl rfl
      · exact .inl rfl
      refine .inr ⟨tradeNo, _, rfl, ?_⟩
      intro order' horder'
      obtain rfl := some.inj (horder.symm.trans horder')
      exact ⟨hfree, not_not.1 hclosed⟩

omit [DecidableEq ι] in
theorem OrderMove.spares (v : OrderMove) (m : SaleMem ι) (j : ι) : Spares j m (v.apply m) := by
  rcases v.apply_cases m with heq | ⟨tradeNo, order, heq, hold⟩
  · rw [heq]
    exact Spares.refl j m
  rw [heq]
  refine ⟨fun _ h => h, fun _ h => h, ?_, fun _ _ _ => rfl⟩
  intro t o hj ho
  have ht : t ≠ tradeNo := by
    rintro rfl
    rw [(hold o ho).1] at hj
    cases hj
  simp only [update_of_ne ht]
  exact ho

omit [DecidableEq ι] in
theorem OrderMove.kept (v : OrderMove) {m : SaleMem ι}
    (horder : m.db.orders tradeNo = some order) (hsold : order.status = .success) :
    (v.apply m).db.orders tradeNo = some order := by
  rcases v.apply_cases m with heq | ⟨t, o, heq, hold⟩
  · rw [heq]
    exact horder
  rw [heq]
  have ht : tradeNo ≠ t := by
    rintro rfl
    rw [(hold order horder).2] at hsold
    cases hsold
  simp only [update_of_ne ht]
  exact horder

omit [DecidableEq ι] in
theorem OrderMove.sub_eq (v : OrderMove) (m : SaleMem ι) : (v.apply m).db.sub = m.db.sub := by
  rcases v.apply_cases m with heq | ⟨_, _, heq, -⟩
  · rw [heq]
  · rw [heq]

section Runs

variable {s s' : Shared ι SalePhase (SaleMem ι)} {ev : SharedEvent ι SaleEnv OrderMove} {tradeNo : String}
  {ms : List (Shared ι SalePhase (SaleMem ι) × SharedEvent ι SaleEnv OrderMove × Shared ι SalePhase (SaleMem ι))}

def SalesFit (w : SaleWorld) (ops : ι → SaleOp) (s : Shared ι SalePhase (SaleMem ι)) : Prop :=
  ∀ i, SaleFits w ops i s.mem (s.phase i)

section

variable (h : SalesFit w ops s)
include h

theorem SalesFit.next (ev : SharedEvent ι SaleEnv OrderMove) : SalesFit w ops ((saleProgram w ops).next s ev) := by
  have hs : s.Holds (fun _ => True) (SaleFits w ops) := ⟨trivial, h⟩
  refine Shared.Holds.phase (hs.next ?_ ?_)
  · intro i e p' m' _ hst
    have hstep := saleStmt_step hst
    exact ⟨trivial, hstep.own (h i), fun j q hne hq => (hstep.spares (h i) hne).fits hq⟩
  · intro v _
    exact ⟨trivial, fun j q hq => (v.spares s.mem j).fits hq⟩

theorem SalesFit.next_db (ev : SharedEvent ι SaleEnv OrderMove) : ((saleProgram w ops).next s ev).mem.db = s.mem.db ∨
      (∃ i e sale, ev = .call i e ∧ Planned w (ops i) i s.mem sale ∧ s.mem.db.checkLimit sale = none ∧
        ((saleProgram w ops).next s ev).phase i = .done (.ok true) ∧
        Committed (ops i) sale s.mem.db ((saleProgram w ops).next s ev).mem.db) ∨
      ∃ v, ev = .env v ∧ ((saleProgram w ops).next s ev).mem = v.apply s.mem := by
  rcases (saleProgram w ops).next_cases s ev with heq | ⟨i, e, p, m, hev, hst, heq⟩ | ⟨v, hev, heq⟩
  · rw [heq]
    exact .inl rfl
  · rw [heq]
    rcases (saleStmt_step hst).db_cases (h i) with hdb | ⟨sale, hplan, hroom, hdone, hcommit⟩
    · exact .inl hdb
    · exact .inr (.inl ⟨i, e, sale, hev, hplan, hroom, by simp [hdone], hcommit⟩)
  · rw [heq]
    exact .inr (.inr ⟨v, hev, rfl⟩)

theorem SalesFit.each (hrun : Run (moves (saleProgram w ops).step) s ms s') :
    ∀ mv ∈ ms, SalesFit w ops mv.1 ∧ mv.2.2 = (saleProgram w ops).next mv.1 mv.2.1 := by
  refine Run.each ?_ hrun h
  intro a mv b ha hmv
  obtain ⟨ev, rfl, rfl⟩ := eq_of_moves hmv
  exact ⟨ha.next ev, ha, rfl⟩

end

def createsFor (ops : ι → SaleOp) (tradeNo : String)
    (mv : Shared ι SalePhase (SaleMem ι) × SharedEvent ι SaleEnv OrderMove × Shared ι SalePhase (SaleMem ι)) :
    Bool :=
  match mv.2.1 with
  | .call i _ => decide ((ops i).tradeNo = some tradeNo) &&
      decide (mv.1.mem.db.sub.subs.nextId ≠ mv.2.2.mem.db.sub.subs.nextId)
  | .env _ => false

theorem SalesFit.of_creates (h : SalesFit w ops s)
    (hc : createsFor ops tradeNo (s, ev, (saleProgram w ops).next s ev) = true) :
    ∃ i e sale, ev = .call i e ∧ (ops i).tradeNo = some tradeNo ∧ Planned w (ops i) i s.mem sale ∧
      Committed (ops i) sale s.mem.db ((saleProgram w ops).next s ev).mem.db := by
  cases ev with
  | env => cases hc
  | call i e =>
    simp only [createsFor, and_eq_true, decide_eq_true_eq] at hc
    obtain ⟨hop, hne⟩ := hc
    rcases h.next_db (.call i e) with hdb | ⟨_, _, sale, ⟨⟩, hplan, -, -, hcommit⟩ | ⟨_, ⟨⟩, -⟩
    · rw [hdb] at hne
      exact absurd rfl hne
    · exact ⟨i, e, sale, rfl, hop, hplan, hcommit⟩

def Unsold (tradeNo : String) (s : Shared ι SalePhase (SaleMem ι)) : Prop :=
  ∀ order, s.mem.db.orders tradeNo = some order → order.status ≠ .success

namespace SalesFit

variable (h : SalesFit w ops s)
include h

theorem sold_next (hsold : ¬ Unsold tradeNo s) : ¬ Unsold tradeNo ((saleProgram w ops).next s ev) := by
  unfold Unsold at hsold ⊢
  push Not at hsold ⊢
  obtain ⟨order, horder, hstatus⟩ := hsold
  refine ⟨order, ?_, hstatus⟩
  rcases h.next_db ev with hdb | ⟨_, _, _, -, -, -, -, hcommit⟩ | ⟨v, -, hmem⟩
  · rw [hdb]
    exact horder
  · exact hcommit.kept horder hstatus
  · rw [hmem]
    exact v.kept horder hstatus

theorem creates_once (hrun : Run (moves (saleProgram w ops).step) s ms s') :
    ms.countP (createsFor ops tradeNo) ≤ 1 := by
  refine Run.countP_le_one (A := Unsold tradeNo) ?_ ?_ ?_ hrun h
  · intro s mv s' hs hst
    obtain ⟨ev, rfl, rfl⟩ := eq_of_moves hst
    exact hs.next ev
  · intro s mv s' hs hst hc
    obtain ⟨ev, rfl, rfl⟩ := eq_of_moves hst
    obtain ⟨i, e, sale, -, hop, -, hcommit⟩ := hs.of_creates hc
    constructor
    · intro order horder hsuccess
      have hpending := hcommit.unsold tradeNo order hop horder
      rw [hsuccess] at hpending
      cases hpending
    intro hunsold
    obtain ⟨order, horder, hsuccess⟩ := hcommit.sold tradeNo hop
    exact hunsold order horder hsuccess
  · intro s mv s' hs hst hsold
    obtain ⟨ev, rfl, rfl⟩ := eq_of_moves hst
    exact hs.sold_next hsold

theorem withinLimit {plan : SalePlan} (hplan : w.planById planId = .ok plan) (hpos : 0 < plan.maxPurchasePerUser)
    (hlimit : s.mem.db.sub.purchases userId planId ≤ plan.maxPurchasePerUser)
    (ev : SharedEvent ι SaleEnv OrderMove) :
    ((saleProgram w ops).next s ev).mem.db.sub.purchases userId planId ≤ plan.maxPurchasePerUser := by
  rcases h.next_db ev with hdb | ⟨_, _, _, -, hopen, hroom, -, hcommit⟩ | ⟨v, -, hmem⟩
  · rw [hdb]
    exact hlimit
  · exact hcommit.withinLimit hopen.toSaleOpen hroom hplan hpos hlimit
  · rw [hmem, v.sub_eq]
    exact hlimit

theorem creates_for_provider {e : SaleEnv} (hev : ev = .call i e) (hexpects : (ops i).expects ≠ .unset)
    (hc : createsFor ops tradeNo (s, ev, (saleProgram w ops).next s ev) = true) :
    ∃ order, s.mem.db.orders tradeNo = some order ∧ order.paymentProvider = (ops i).expects := by
  obtain ⟨i', e', sale, hev', hop, hplan, -⟩ := h.of_creates hc
  obtain ⟨rfl, rfl⟩ : i' = i ∧ e' = e := by
    rw [hev] at hev'
    cases hev'
    exact ⟨rfl, rfl⟩
  have hlocked : (ops i').lockedOrder = some tradeNo := by
    cases hi : ops i' with
    | complete => rw [hi] at hop; exact hop
    | purchase | bind => rw [hi] at hexpects; exact absurd rfl hexpects
  obtain ⟨order, -, horder, -, hprovider⟩ := hplan.order tradeNo hlocked
  exact ⟨order, horder, hprovider hexpects⟩

theorem failed_keeps_quota {err : OrderErr}
    (hrun : Run (moves (saleProgram w ops).step) s ms s') (hfail : s'.phase i = .done (.error err)) :
    ∀ mv ∈ ms, (∃ e, mv.2.1 = .call i e) → mv.2.2.mem.db.quota = mv.1.mem.db.quota := by
  rintro mv hmv ⟨e, hev⟩
  obtain ⟨ha, hb⟩ := h.each hrun mv hmv
  rw [hev] at hb
  rcases ha.next_db (.call i e) with hdb | ⟨_, _, _, ⟨⟩, -, -, hdone, -⟩ | ⟨_, ⟨⟩, -⟩
  · rw [hb]
    exact congrArg quota hdb
  -- a call that has committed never ends with an error
  rw [← hb] at hdone
  have hkept := phase_of_moves (fun _ _ => rfl) hrun hmv hdone
  rw [hfail] at hkept
  cases hkept

end SalesFit

/-- **Orders and limits under concurrency.** -/
theorem sales_keep_limits (hidle : ∀ i, s.phase i = .idle)
    (hrun : Run (moves (saleProgram w ops).step) s ms s') :
    (∀ userId planId plan, w.planById planId = .ok plan → 0 < plan.maxPurchasePerUser →
      s.mem.db.sub.purchases userId planId ≤ plan.maxPurchasePerUser →
      s'.mem.db.sub.purchases userId planId ≤ plan.maxPurchasePerUser) ∧
    (∀ tradeNo, ms.countP (createsFor ops tradeNo) ≤ 1) ∧
    (∀ tradeNo, ∀ mv ∈ ms, createsFor ops tradeNo mv = true → ∀ i e, mv.2.1 = .call i e → (ops i).expects ≠ .unset →
      ∃ order, mv.1.mem.db.orders tradeNo = some order ∧ order.paymentProvider = (ops i).expects) ∧
    ∀ i userId planId tradeNo err, ops i = .purchase userId planId tradeNo → s'.phase i = .done (.error err) →
      ∀ mv ∈ ms, (∃ e, mv.2.1 = .call i e) → mv.2.2.mem.db.quota = mv.1.mem.db.quota := by
  have hfit : SalesFit w ops s := by
    intro i
    rw [hidle i]
    trivial
  refine ⟨?_, fun tradeNo => hfit.creates_once hrun, ?_, ?_⟩
  · intro userId planId plan hplan hpos hlimit
    refine (Run.inv (I := fun s => SalesFit w ops s ∧
      s.mem.db.sub.purchases userId planId ≤ plan.maxPurchasePerUser) ?_ hrun ⟨hfit, hlimit⟩).2
    intro a mv b ha hmv
    obtain ⟨ev, -, rfl⟩ := eq_of_moves hmv
    exact ⟨ha.1.next ev, ha.1.withinLimit hplan hpos ha.2 ev⟩
  · rintro tradeNo ⟨a, ev, b⟩ hmv hc i e hev hexpects
    obtain ⟨ha, hb⟩ := hfit.each hrun _ hmv
    obtain rfl : b = (saleProgram w ops).next a ev := hb
    exact ha.creates_for_provider hev hexpects hc
  · intro i userId planId tradeNo err _ hfail
    exact hfit.failed_keeps_quota hrun hfail

end Runs

section Alone

variable {s : Shared ι SalePhase (SaleMem ι)}

/-- After `n` more statements the call has this result; an error leaves the rows as they were. -/
def EndsWith (w : SaleWorld) (ops : ι → SaleOp) (i : ι) (e : SaleEnv) (n : ℕ)
    (res : Except OrderErr (Bool × SaleDB)) (db : SaleDB) (s : Shared ι SalePhase (SaleMem ι)) : Prop :=
  let s' := (List.replicate n (.call i e)).foldl (saleProgram w ops).next s
  s'.phase i = .done (res.map (·.1)) ∧ s'.mem.db = (res.toOption.map (·.2)).getD db

theorem endsWith_error {err : OrderErr} (n : ℕ) (h : s.At i p m)
    (hst : saleStmt w ops i e p m = some (m.rollback i err)) : EndsWith w ops i e (n + 1) (.error err) m.db s := by
  have hnext := h.next (π := saleProgram w ops) hst
  obtain ⟨hp, hm⟩ := hnext.stays (saleProgram w ops) e rfl n
  have hdb := congrArg SaleMem.db hm
  exact ⟨hp, hdb⟩

theorem endsWith_counted (w : SaleWorld) (ops : ι → SaleOp) (now : ℤ) (h : s.At i (.counted sale) m) :
    EndsWith w ops i ⟨now, false⟩ 1 ((m.db.commit w now (ops i) sale).map (true, ·)) m.db s := by
  cases hcommit : m.db.commit w now (ops i) sale with
  | error =>
    apply endsWith_error 0 h
    simp [saleStmt, hcommit]
  | ok db =>
    have hst : (saleProgram w ops).stmt i ⟨now, false⟩ (.counted sale) m =
        some (.done (.ok true), ({ m with db } : SaleMem ι).release i) := by
      simp [saleProgram, saleStmt, hcommit]
    obtain ⟨hp, hm⟩ := h.next hst
    exact ⟨hp, congrArg SaleMem.db hm⟩

theorem endsWith_holding (w : SaleWorld) (ops : ι → SaleOp) (now : ℤ) (h : s.At i (.holding sale) m) :
    EndsWith w ops i ⟨now, false⟩ 2 ((m.db.checkLimit sale).elim
      ((m.db.commit w now (ops i) sale).map (true, ·)) .error) m.db s := by
  cases hlimit : m.db.checkLimit sale with
  | some =>
    apply endsWith_error 1 h
    simp [saleStmt, hlimit]
  | none =>
    have hst : (saleProgram w ops).stmt i ⟨now, false⟩ (.holding sale) m = some (.counted sale, m) := by
      simp [saleProgram, saleStmt, hlimit]
    exact endsWith_counted w ops now (h.next hst)

theorem endsWith_planned (w : SaleWorld) (ops : ι → SaleOp) (now : ℤ) (h : s.At i (.planned sale) m)
    (hfree : m.userLock sale.userId = none) :
    EndsWith w ops i ⟨now, false⟩ 3 ((m.db.checkUser sale).elim ((m.db.checkLimit sale).elim
      ((m.db.commit w now (ops i) sale).map (true, ·)) .error) .error) m.db s := by
  cases hcheck : m.db.checkUser sale with
  | some =>
    apply endsWith_error 2 h
    simp [saleStmt, hfree, hcheck]
  | none =>
    have hst : (saleProgram w ops).stmt i ⟨now, false⟩ (.planned sale) m = some (.holding sale,
        { m with userLock := update m.userLock sale.userId (some i) }) := by
      simp [saleProgram, saleStmt, hfree, hcheck]
    have hends := endsWith_holding w ops now (h.next hst)
    exact hends

/-- **A call that nothing disturbs** does what the transaction does as a whole. -/
theorem sale_alone (hidle : s.phase i = .idle) (horder : ∀ tradeNo, s.mem.orderLock tradeNo = none)
    (huser : ∀ userId, s.mem.userLock userId = none) (now : ℤ) :
    EndsWith w ops i ⟨now, false⟩ 4 (s.mem.db.sell w now (ops i)) s.mem.db s := by
  have h0 : s.At i .idle s.mem := ⟨hidle, rfl⟩
  have hfree : ((ops i).lockedOrder.bind s.mem.orderLock).isSome = false := by
    cases (ops i).lockedOrder with
    | none => rfl
    | some tradeNo => simp [horder tradeNo]
  have hbegin : (saleProgram w ops).stmt i ⟨now, false⟩ .idle s.mem = some (s.mem.begin w (ops i) i) := by
    simp [saleProgram, saleStmt, hfree]
  unfold sell
  unfold SaleMem.begin at hbegin
  cases hstart : s.mem.db.start w (ops i) with
  | error =>
    rw [hstart] at hbegin
    exact endsWith_error 3 h0 hbegin
  | ok sold =>
    rw [hstart] at hbegin
    cases sold with
    | none =>
      have hdone := h0.next hbegin
      obtain ⟨hp, hm⟩ := hdone.stays (saleProgram w ops) ⟨now, false⟩ rfl 3
      have hdb := congrArg SaleMem.db hm
      exact ⟨hp, hdb⟩
    | some sale =>
      have hplanned := h0.next hbegin
      have hends := endsWith_planned w ops now hplanned (huser sale.userId)
      simp only
      cases hcheck : s.mem.db.checkUser sale with
      | some =>
        rw [hcheck] at hends
        exact hends
      | none =>
        rw [hcheck] at hends
        cases hlimit : s.mem.db.checkLimit sale with
        | some | none =>
          rw [hlimit] at hends
          exact hends

end Alone

def sampleSaleWorld : SaleWorld where
  cal := sampleCalendar
  plans id := if id = 1 then some { samplePlan 100 100000 with
      maxPurchasePerUser := 1, enabled := true, priceAmount := 1, allowBalancePay := true } else none
  quotaPerUnit := 500

def sampleSaleDB (quota : ℤ) : SaleDB where
  sub := emptySubSystem.db
  quota userId := if userId = 7 then some quota else none
  orders tradeNo := if tradeNo = "t" then some ⟨7, 1, 1, "stripe", .stripe, .pending, 0, ""⟩ else none
  topUps _ := none
  packages userId := if userId = 7 then [⟨.quota, 800, .whitelist, ["a"], 0⟩] else []

def sampleSaleOps : Fin 3 → SaleOp
  | 0 => .complete "t" "" .stripe ""
  | 1 => .complete "t" "" .stripe ""
  | 2 => .purchase 7 1 "p"

def sampleSales : Shared (Fin 3) SalePhase (SaleMem (Fin 3)) where
  mem := ⟨sampleSaleDB 1000, fun _ => none, fun _ => none⟩
  phase _ := .idle

def sampleSaleEvents (is : List (Fin 3)) : List (SharedEvent (Fin 3) SaleEnv OrderMove) := is.map (.call · ⟨10, false⟩)

/-- The first callback commits while the other two wait for its locks. -/
theorem sales_keep_limits_one_left :
    let next := (saleProgram sampleSaleWorld sampleSaleOps).next
    let es := sampleSaleEvents [0, 1, 2, 0, 2, 0, 2, 0, 1, 2, 2]
    let s' := es.foldl next sampleSales
    (List.finRange 3).map s'.phase = [.done (.ok true), .done (.ok false), .done (.error (.sub .purchaseLimit))] ∧
      s'.mem.db.sub.purchases 7 1 ≤ 1 ∧
      (trail next sampleSales es).countP (createsFor sampleSaleOps "t") ≤ 1 := by
  intro next es s'
  have hrun : Run (moves (saleProgram sampleSaleWorld sampleSaleOps).step) sampleSales _ s' :=
    Run.trail next sampleSales es
  have h := sales_keep_limits (fun _ => rfl) hrun
  have hlimit : (s'.mem.db.sub.purchases 7 1 : ℤ) ≤ 1 := h.1 7 1 _ rfl (by decide) (by decide +kernel)
  exact ⟨by decide +kernel, by exact_mod_cast hlimit, h.2.1 "t"⟩

end Statements

theorem SaleDB.purchase_ok {created : Bool}
    (h : db.purchaseSubscriptionWithBalance w now userId planId tradeNo = .ok (created, db')) :
    ∃ sale, w.price userId planId = .ok sale ∧ db'.packages = db.packages ∧
      db'.quota = update db.quota userId ((db.quota userId).map (· - max sale.charge 0)) := by
  simp only [purchaseSubscriptionWithBalance, sell, start] at h
  cases hprice : w.price userId planId with
  | error => rw [hprice] at h; cases h
  | ok sale =>
    rw [hprice] at h
    simp only [Except.map] at h
    split at h
    · cases h
    split at h
    · cases h
    obtain ⟨db1, hcommit, heq⟩ := map_eq_ok h
    obtain rfl := (Prod.mk.inj heq).2
    have huser := (price_ok hprice).1
    unfold commit at hcommit
    split at hcommit
    · cases hcommit
    simp only at hcommit
    split at hcommit
    · cases hcommit
    cases hcommit
    exact ⟨sale, rfl, rfl, by rw [huser]⟩

def SaleDB.chargeOf (w : SaleWorld) (userId : ℕ) (db : SaleDB) (c : PurchaseCall) : ℤ :=
  match db.purchaseSubscriptionWithBalance w c.now c.userId c.planId c.tradeNo, w.price c.userId c.planId with
  | .ok _, .ok sale => if c.userId = userId then max sale.charge 0 else 0
  | _, _ => 0

def SaleDB.restricted (now : ℤ) (userId : ℕ) (db : SaleDB) : ℤ :=
  remainingIn .quota (·.unexpired now) (db.packages userId)

theorem SaleDB.purchase_charges (w : SaleWorld) (db : SaleDB) (userId : ℕ) (c : PurchaseCall) :
    (db.purchase w c).packages = db.packages ∧
      (db.purchase w c).quota userId = (db.quota userId).map (· - db.chargeOf w userId c) := by
  unfold purchase chargeOf
  cases h : db.purchaseSubscriptionWithBalance w c.now c.userId c.planId c.tradeNo with
  | error => simp
  | ok =>
    obtain ⟨sale, hprice, hpackages, hquota⟩ := purchase_ok h
    simp only [hprice]
    refine ⟨hpackages, ?_⟩
    rw [hquota]
    by_cases huser : c.userId = userId
    · rw [← huser, update_self, if_pos rfl]
    · rw [update_of_ne (Ne.symm huser), if_neg huser]
      simp

theorem purchases_charge {userId : ℕ} {q : ℤ} {ms : List (SaleDB × PurchaseCall × SaleDB)}
    (hq : db.quota userId = some q) (hrun : Run (moves fun db c db' => db' = db.purchase w c) db ms db') :
    db'.packages = db.packages ∧
      db'.quota userId = some (q - (ms.map fun mv => mv.1.chargeOf w userId mv.2.1).sum) := by
  induction hrun generalizing q with
  | nil => simp [hq]
  | @cons db db1 db2 mv ms hst _ ih =>
    obtain ⟨hs, hstep, -⟩ := hst
    obtain ⟨hpackages, hquota⟩ := purchase_charges w db userId mv.2.1
    rw [← show db1 = db.purchase w mv.2.1 from hstep] at hpackages hquota
    rw [hq] at hquota
    obtain ⟨hpackages', hquota'⟩ := ih hquota
    refine ⟨hpackages'.trans hpackages, ?_⟩
    rw [hquota', map_cons, sum_cons, hs]
    congr 1
    ring

/-- **Packages stay covered** by the wallet as long as the purchases cost no more than the rest of it. -/
theorem packages_covered_iff {userId : ℕ} {q : ℤ} {ms : List (SaleDB × PurchaseCall × SaleDB)}
    (hq : db.quota userId = some q) (hrun : Run (moves fun db c db' => db' = db.purchase w c) db ms db') :
    (∃ q', db'.quota userId = some q' ∧ db'.restricted now userId ≤ q') ↔
      (ms.map fun mv => mv.1.chargeOf w userId mv.2.1).sum ≤ q - db.restricted now userId := by
  obtain ⟨hpackages, hquota⟩ := purchases_charge hq hrun
  have hrestricted : db'.restricted now userId = db.restricted now userId := by
    unfold restricted
    rw [hpackages]
  rw [hquota, hrestricted]
  constructor
  · rintro ⟨q', hq', hle⟩
    have := some.inj hq'
    omega
  · intro hle
    exact ⟨_, rfl, by omega⟩

theorem packages_covered_iff_cheap :
    let db := sampleSaleDB 1500
    let calls : List PurchaseCall := [⟨10, 7, 1, "p"⟩, ⟨20, 7, 1, "q"⟩]
    let db' := calls.foldl (purchase sampleSaleWorld) db
    db'.quota 7 = some 1000 ∧ ∃ q', db'.quota 7 = some q' ∧ db'.restricted 30 7 ≤ q' := by
  intro db calls db'
  refine ⟨by decide +kernel, ?_⟩
  exact (packages_covered_iff (q := 1500) (by decide +kernel)
    (Run.trail (purchase sampleSaleWorld) db calls)).2 (by decide +kernel)

/-- Of a wallet of 1000, 800 are restricted to the model `a`; a plan for 500 is bought all the same. -/
theorem restricted_money_buys_plan :
    let db := sampleSaleDB 1000
    let db' := db.purchase sampleSaleWorld ⟨10, 7, 1, "p"⟩
    db.quota 7 = some 1000 ∧ db.restricted 10 7 = 800 ∧ db'.quota 7 = some 500 ∧ db'.restricted 10 7 = 800 := by
  decide +kernel

end NewApi
