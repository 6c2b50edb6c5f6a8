import NewApi.Proof.SubscriptionDB

/-!
# The bounds of a subscription
-/

namespace NewApi

open Trace RefundStatement SubDB List

variable {i : ℕ} {r sub : SubRow} {w : SubWorld} {plan : PlanRow} {now : ℤ} {db db' : SubDB} {op : SubOp} {e : SubErr}

/-- The used amount of every limited subscription is between zero and its total. -/
def SubDB.InBounds (db : SubDB) : Prop :=
  ∀ i r, db.subs.row i = some r → 0 < r.amountTotal → 0 ≤ r.amountUsed ∧ r.amountUsed ≤ r.amountTotal

theorem charge_fits {total used amount : Int64} (h0 : 0 ≤ used) (hle : used ≤ total) (ha : 0 < amount)
    (hfits : ¬ total - used < amount) : 0 ≤ used + amount ∧ used + amount ≤ total := by
  have htotal := total.toInt_lt
  have hused := used.toInt_lt
  simp only [Int64.lt_iff_toInt_lt, Int64.le_iff_toInt_le, Int64.toInt_add, Int64.toInt_sub, Int64.toInt_zero,
    Int.bmod] at *
  omega

theorem SubDB.InBounds.save (hb : db.InBounds)
    (hr : 0 < r.amountTotal → 0 ≤ r.amountUsed ∧ r.amountUsed ≤ r.amountTotal) : (db.save i r).InBounds := by
  intro j r' hrow
  rcases SubRows.set_row_cases hrow with ⟨-, hsame⟩ | hrow
  · rw [Option.some.injEq] at hsame
    exact hsame ▸ hr
  · exact hb j r' hrow

theorem SubDB.InBounds.saveReset {kind : ResetKind} (hb : db.InBounds) (hr : r.amountUsed = 0) :
    (db.saveReset i r now kind).InBounds := by
  have hzero : 0 < r.amountTotal → 0 ≤ r.amountUsed ∧ r.amountUsed ≤ r.amountTotal := by
    intro hpos
    rw [hr]
    exact ⟨Int64.le_refl 0, Int64.le_of_lt hpos⟩
  exact hb.save hzero

theorem SubRow.adminReset_amountUsed (cal : Calendar) (p : SubscriptionPlan) (adv : Bool) (sub : SubRow) :
    (sub.adminReset cal p now adv).amountUsed = 0 := by
  unfold adminReset
  split <;> rfl

theorem QuotaMove.inBounds (h : QuotaMove w now op db db') (hb : db.InBounds) : db'.InBounds := by
  cases h with
  | automatic => exact hb.saveReset rfl
  | scheduled hrow =>
    have hold := hb _ _ hrow
    exact hb.save hold
  | charged hrow ha hfits =>
    apply hb.save
    intro hpos
    obtain ⟨h0, hle⟩ := hb _ _ hrow hpos
    exact charge_fits h0 hle ha fun hlt => hfits ⟨hpos, hlt⟩
  | moved hrow h0 hfits =>
    apply hb.save
    intro hpos
    exact ⟨h0, Int64.not_lt.1 fun hlt => hfits ⟨hpos, hlt⟩⟩
  | admin => exact hb.saveReset (SubRow.adminReset_amountUsed _ _ _ _)
  | recorded => exact hb

theorem QuotaMoves.inBounds (h : QuotaMoves w now op db db') (hb : db.InBounds) : db'.InBounds := by
  induction h with
  | refl => exact hb
  | tail _ hmove ih => exact hmove.inBounds ih

theorem SubDB.InBounds.expireUser (hb : db.InBounds) (userId : ℕ) : (db.expireUser now userId).InBounds := by
  intro j r hrow hpos
  rw [expireUser_subs] at hrow
  obtain ⟨r0, hrow0, rfl⟩ := Option.map_eq_some_iff.1 hrow
  have hbound := hb j r0 hrow0
  split at hpos <;> split <;> exact hbound hpos

theorem SubDB.InBounds.create {userId planId : ℕ} (hb : db.InBounds)
    (h : db.createUserSubscriptionFromPlan w now userId planId plan = .ok db') : db'.InBounds := by
  obtain ⟨endUnix, -, -, rfl⟩ := create_ok h
  intro j r hrow hpos
  rcases SubRows.insert_row_cases hrow with ⟨-, rfl⟩ | hrow
  · exact ⟨Int64.le_refl 0, Int64.le_of_lt hpos⟩
  · exact hb j r hrow hpos

section

variable (hb : db.InBounds)
include hb

theorem SubDB.InBounds.invalidate  (h : db.adminInvalidateUserSubscription now i = .ok db') : db'.InBounds := by
  obtain ⟨sub, hrow, hdb⟩ := invalidate_ok h
  have hold := hb _ _ hrow
  intro j r hrow'
  rw [hdb, downgradeUserGroup_subs] at hrow'
  rcases SubRows.set_row_cases hrow' with ⟨-, hsame⟩ | hrow'
  · cases hsame
    exact hold
  · exact hb j r hrow'

theorem SubDB.InBounds.delete (h : db.adminDeleteUserSubscription now i = .ok db') : db'.InBounds := by
  obtain ⟨sub, -, hdb⟩ := delete_ok h
  intro j r hrow
  rw [hdb] at hrow
  rcases SubRows.set_row_cases hrow with ⟨-, hnone⟩ | hrow
  · cases hnone
  · exact hb j r hrow

theorem SubDB.InBounds.call (op : SubOp) : (db.call w now op).1.InBounds := by
  cases op with
  | create =>
    apply after_of hb
    intro db' hok
    obtain ⟨plan, -, hcreate⟩ := bind_eq_ok hok
    exact hb.create hcreate
  | expireDue => exact expireUsers_of hb fun db userId h => h.expireUser userId
  | invalidate => exact after_of hb fun db' hok => hb.invalidate hok
  | delete => exact after_of hb fun db' hok => hb.delete hok
  | preConsume | refundWithRetry | resetDue | adminResetUser | adminResetPlan => exact (call_moves rfl).inBounds hb
  | postConsume | refund => exact QuotaMoves.inBounds (call_moves rfl) hb

end

/-- What the call writes is rolled back when it returns an error: it is one transaction, or nothing fails between its
transactions. -/
def SubOp.allOrNothing : SubOp → Bool
  | .refund _ failing => !failing.any late
  | .refundWithRetry _ first second third => [first, second, third].all fun failing => !failing.any late
  | .resetDue _ failing | .expireDue _ _ failing => failing.isEmpty
  | _ => true

theorem SubDB.after_error {dbErr : Bool} {res : Except SubErr SubDB} (h : (db.after dbErr res).2 = some e) :
    (db.after dbErr res).1 = db := by
  rcases db.after_cases dbErr res with heq | ⟨-, hnone⟩
  · exact heq
  · rw [hnone] at h
    cases h

theorem SubDB.refund_error {failing : Option RefundStatement} {requestId : String} (hlate : failing.any late = false)
    (h : (db.refundSubscriptionPreConsume failing requestId).2 = some e) :
    (db.refundSubscriptionPreConsume failing requestId).1 = db := by
  unfold refundSubscriptionPreConsume at h ⊢
  split
  · rfl
  rename_i hblank
  rw [if_neg hblank] at h
  split
  · rfl
  rename_i hearly
  rw [if_neg hearly] at h
  cases hrec : db.records requestId with
  | none => rfl
  | some record =>
    simp only [hrec, hlate, Bool.false_eq_true, if_false] at h ⊢
    split
    · rfl
    rename_i hopen
    rw [if_neg hopen] at h
    split_ifs with hzero
    · rw [if_pos hzero] at h
      cases h
    rw [if_neg hzero] at h
    cases hdelta : db.postConsumeUserSubscriptionDelta (failing.bind inDelta)
        record.userSubscriptionId (-record.preConsumed) with
    | error e => rfl
    | ok db1 =>
      rw [hdelta] at h
      cases h

theorem SubDB.refundAttempts_error {requestId : String} {lastErr : Option SubErr}
    {attempts : List (Option RefundStatement)}
    (hlate : ∀ failing ∈ attempts, failing.any late = false)
    (h : (db.refundAttempts requestId lastErr attempts).2 = some e) :
    (db.refundAttempts requestId lastErr attempts).1 = db := by
  induction attempts generalizing lastErr with
  | nil => rfl
  | cons failing rest ih =>
    unfold refundAttempts at h ⊢
    cases hr : db.refundSubscriptionPreConsume failing requestId with
    | mk db1 o =>
      rw [hr] at h
      cases o with
      | none => cases h
      | some e1 =>
        have herr : (db.refundSubscriptionPreConsume failing requestId).2 = some e1 := by rw [hr]
        have hfirst := refund_error (hlate failing mem_cons_self) herr
        rw [hr] at hfirst
        subst hfirst
        exact ih (fun f hf => hlate f (mem_cons_of_mem _ hf)) h

theorem SubDB.maybeReset_error (h : db.maybeReset w plan now i sub = .error e) : e = .hangs := by
  unfold maybeReset at h
  split at h
  · cases h
  · cases h
  · cases h
  · cases h
    rfl

theorem SubDB.resetLocked_error (h : db.resetLocked w plan now i = .error e) : e = .hangs := by
  unfold resetLocked at h
  split at h
  · cases h
  rename_i locked _
  split at h
  · cases hreset : db.maybeReset w plan now i locked with
    | error =>
      rw [hreset] at h
      cases h
      exact maybeReset_error hreset
    | ok =>
      rw [hreset] at h
      cases h
  · cases h

theorem SubDB.resetDueFrom_error {l : List (ℕ × SubRow)} (h : (db.resetDueFrom w now [] l).2 = some e) :
    e = .hangs := by
  induction l generalizing db with
  | nil => cases h
  | cons row l ih =>
    unfold resetDueFrom at h
    split at h
    · exact ih h
    split at h
    · rename_i hlocked
      cases h
      exact resetLocked_error hlocked
    · exact ih h

theorem SubDB.expireUsers_error {users : List ℕ} : (db.expireUsers now [] users).2 = none := by
  induction users generalizing db with
  | nil => rfl
  | cons userId rest ih =>
    unfold expireUsers
    rw [if_neg not_mem_nil]
    exact ih

/-- **A call that is refused writes nothing.** -/
theorem SubDB.call_error {op : SubOp} (hop : op.allOrNothing = true) (he : e ≠ .hangs)
    (h : (db.call w now op).2 = some e) : (db.call w now op).1 = db := by
  cases op with
  | refund requestId failing =>
    have hlate : failing.any late = false := by simpa [SubOp.allOrNothing] using hop
    exact refund_error hlate h
  | refundWithRetry requestId first second third =>
    have hlate : ∀ failing ∈ [first, second, third], failing.any late = false := by
      intro failing hmem
      have hnot := all_eq_true.1 hop failing hmem
      rwa [Bool.not_eq_true'] at hnot
    exact refundAttempts_error hlate h
  | resetDue limit failing =>
    have hnil : failing = [] := isEmpty_iff.1 hop
    subst hnil
    exact absurd (resetDueFrom_error h) he
  | expireDue limit order failing =>
    have hnil : failing = [] := isEmpty_iff.1 hop
    subst hnil
    have hnone : (db.call w now (.expireDue limit order [])).2 = none := expireUsers_error
    rw [hnone] at h
    cases h
  | create | preConsume | postConsume | adminResetUser | adminResetPlan | invalidate | delete => exact after_error h

/-- **The used amount stays within its bounds** after every call of a run, and a call that is refused writes nothing.
-/
theorem used_within_total {s s' : SubSystem} {evs : List SubEvent}
    (hrun : Run (fun s ev s' => s' = SubSystem.next w s ev) s evs s') (h0 : s.db.InBounds) :
    s'.db.InBounds ∧ ∀ ev : SubEvent, ev.op.allOrNothing = true → ∀ e, e ≠ .hangs →
      (s'.db.call w ev.time ev.op).2 = some e → (s'.db.call w ev.time ev.op).1 = s'.db := by
  have hstep : ∀ s ev s', s.db.InBounds → s' = SubSystem.next w s ev → s'.db.InBounds := by
    rintro s ev _ hb rfl
    exact hb.call ev.op
  refine ⟨hrun.inv (I := fun s => s.db.InBounds) hstep h0, ?_⟩
  intro ev hop e he herr
  exact call_error hop he herr

def sampleCalendar : PlanCalendar where
  nextDay t := (t / 86400 + 1) * 86400
  nextMonday t := ((t / 86400 + 3) / 7 + 1) * 604800 - 259200
  nextMonth t := (t / 2592000 + 1) * 2592000
  addYears t n := t + n * 31536000
  addMonths t n := t + n * 2592000

def samplePlan (total : Int64) (seconds : ℤ) : PlanRow where
  title := "daily"
  quotaResetPeriod := .daily
  quotaResetCustomSeconds := 0
  durationUnit := .custom
  durationValue := 0
  customSeconds := seconds
  maxPurchasePerUser := 0
  upgradeGroup := "vip"
  downgradeGroup := ""
  totalAmount := total

def sampleSubWorld (total : Int64) (seconds : ℤ) : SubWorld where
  cal := sampleCalendar
  plans id := if id = 1 then some (samplePlan total seconds) else none

def emptySubSystem : SubSystem where
  db :=
    { subs := ⟨fun _ => none, 1, fun _ _ => rfl⟩
      records := fun _ => none
      groups := fun u => if u = 7 then some "default" else none
      resets := [] }
  clock := 0

def sampleSpending : List SubEvent :=
  [⟨1000, .create 7 1 false⟩, ⟨1010, .preConsume "r" 7 60 false⟩, ⟨1020, .postConsume 1 41 none⟩,
    ⟨1030, .postConsume 1 40 none⟩, ⟨1040, .refund "r" none⟩]

theorem used_within_total_sample :
    let w := sampleSubWorld 100 100000
    let s' := sampleSpending.foldl (SubSystem.next w) emptySubSystem
    (s'.db.subs.row 1).map (·.amountUsed) = some 40 ∧ s'.db.InBounds ∧
      (s'.db.call w 1050 (.postConsume 1 61 none)).1 = s'.db := by
  have hempty : emptySubSystem.db.InBounds := by
    intro i r hrow
    cases hrow
  obtain ⟨hbounds, hrefused⟩ := used_within_total
    (Run.of_foldl (SubSystem.next (sampleSubWorld 100 100000)) emptySubSystem sampleSpending) hempty
  exact ⟨by decide +kernel, hbounds,
    hrefused ⟨1050, .postConsume 1 61 none⟩ rfl (.usedExceedsTotal 101 100) (by decide) (by decide +kernel)⟩

/-- The delta of a refund is committed on its own, so it stays when the mark can not be saved. -/
theorem refused_refund_gives_back :
    let w := sampleSubWorld 100 100000
    let s := (sampleSpending.take 2).foldl (SubSystem.next w) emptySubSystem
    let refund := s.db.call w 1020 (.refund "r" (some .save))
    (s.db.subs.row 1).map (·.amountUsed) = some 60 ∧ refund.2 = some .db ∧
      (refund.1.subs.row 1).map (·.amountUsed) = some 0 := by
  decide +kernel

end NewApi
