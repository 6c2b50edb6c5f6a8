import NewApi.Proof.SubscriptionDB

/-!
# The subscription calls on 64 bits are those on amounts without bounds

`Spec/Subscription.lean` has the rows of one user and amounts that do not overflow, `Spec/SubscriptionDB.lean` the whole
tables on 64 bits. `SubDB.Shows` reads the first off the second; as long as no sum overflows, a charge
(`SubDB.Shows.preConsume`), a delta (`SubDB.Shows.postConsume`) and a refund (`SubDB.Shows.refund`) of a subscription of
that user fail in both or keep to it.
-/

namespace NewApi

open SubDB Function List SubRow

variable {i : ℕ} {r sub : SubRow} {w : SubWorld} {plan : PlanRow} {now : ℤ} {db : SubDB} {st : SubStore} {u : ℕ}
  {delta amount : Int64} {requestId : String} {l : List (ℕ × SubRow)}

/-- The row as the model without bounds has it -/
abbrev SubRow.userSubscription (id : ℕ) (row : SubRow) : UserSubscription :=
  ⟨id, row.planId, row.amountTotal.toInt, row.amountUsed.toInt.toNat, row.startTime, row.endTime,
    row.status = .active, row.lastResetTime, row.nextResetTime⟩

def SubRecord.record (rec : SubRecord) : SubscriptionPreConsumeRecord :=
  ⟨rec.userSubscriptionId, rec.preConsumed.toInt, rec.refunded⟩

/-- The store has the rows of the user `u` and all records. -/
structure SubDB.Shows (u : ℕ) (db : SubDB) (st : SubStore) : Prop where
  rows : st.table.rows = (db.subs.entries.filter (·.2.userId = u)).map fun e => e.2.userSubscription e.1
  records : st.records = Option.map SubRecord.record ∘ db.records
  used : ∀ i row, db.subs.row i = some row → 0 ≤ row.amountUsed.toInt

/-- A row with this id is one of the user's. -/
def SubDB.Owns (db : SubDB) (u i : ℕ) : Prop := ∀ row, db.subs.row i = some row → row.userId = u

/-- Both fail, or both succeed with results that fit. -/
inductive BothFit {α β ε ε' : Type} (fit : α → β → Prop) : Except ε α → Except ε' β → Prop
  | failed {e e'} : BothFit fit (.error e) (.error e')
  | ok {a b} (h : fit a b) : BothFit fit (.ok a) (.ok b)

theorem SubRows.entries_set {t : SubRows} (h : t.row i = some sub) :
    (t.set i (some r)).entries = t.entries.map fun e => if e.1 = i then (i, r) else e := by
  unfold entries
  rw [map_filterMap]
  refine filterMap_congr fun k _ => ?_
  by_cases hk : k = i
  · subst hk
    simp [set_row_self h, h]
  · rw [set_row_ne hk]
    cases t.row k <;> simp [hk]

namespace SubDB.Shows

theorem find (h : db.Shows u st) (hown : db.Owns u i) :
    st.table.find i = (db.subs.row i).map (·.userSubscription i) := by
  cases hrow : db.subs.row i with
  | some sub =>
    refine SubTable.find_of_mem (s := sub.userSubscription i) ?_
    rw [h.rows, mem_map]
    exact ⟨(i, sub), mem_filter.2 ⟨SubRows.mem_entries.2 hrow, by simpa using hown sub hrow⟩, rfl⟩
  | none =>
    refine find?_eq_none.2 fun s hs hid => ?_
    rw [h.rows, mem_map] at hs
    obtain ⟨e, he, rfl⟩ := hs
    have hsome := SubRows.mem_entries.1 (mem_of_mem_filter he)
    rw [show e.1 = i from of_decide_eq_true hid, hrow] at hsome
    cases hsome

theorem save (h : db.Shows u st) (hrow : db.subs.row i = some sub) (hu : sub.userId = u) (hr : r.userId = u)
    (hused : 0 ≤ r.amountUsed.toInt) :
    (db.save i r).Shows u { st with table := st.table.save (r.userSubscription i) } := by
  refine ⟨?_, h.records, fun k row hk => ?_⟩
  · simp only [SubTable.save, h.rows, SubDB.save, SubRows.entries_set hrow, filter_map, map_map]
    refine congr (congrArg _ ?_) (filter_congr ?_)
    · funext e
      simp only [comp]
      split_ifs <;> rfl
    · intro e he
      by_cases hi : e.1 = i
      · obtain rfl := Option.some.inj (hrow.symm.trans (hi ▸ SubRows.mem_entries.1 he))
        simp [hi, hu, hr]
      · simp [hi]
  · rcases SubRows.set_row_cases hk with ⟨-, hsame⟩ | hold
    · exact Option.some.inj hsame ▸ hused
    · exact h.used k row hold

theorem setRecord (h : db.Shows u st) (requestId : String) (rec : SubRecord) :
    SubDB.Shows u { db with records := update db.records requestId (some rec) }
      { st with records := update st.records requestId (some rec.record) } := by
  refine ⟨h.rows, ?_, h.used⟩
  rw [h.records]
  exact (comp_update (Option.map SubRecord.record) db.records requestId (some rec)).symm

end SubDB.Shows

/-! ### The delta -/

theorem SubRow.usedAfter_toInt (h0 : 0 ≤ sub.amountUsed.toInt) (hfits : sub.amountUsed.toInt + delta.toInt < 2 ^ 63) :
    (sub.usedAfter delta).toInt = ((sub.userSubscription i).amountUsed + delta.toInt).toNat := by
  have hdelta := delta.le_toInt
  unfold usedAfter
  split_ifs with hneg <;>
    simp only [Int64.lt_iff_toInt_lt, Int64.toInt_add, Int64.toInt_zero, Int.bmod] at * <;> omega

/-- **A delta that does not overflow** is the one on amounts without bounds. -/
theorem SubDB.Shows.postConsume (h : db.Shows u st) (delta : Int64) (hown : db.Owns u i)
    (hfits : ∀ sub, db.subs.row i = some sub → sub.amountUsed.toInt + delta.toInt < 2 ^ 63) :
    BothFit (SubDB.Shows u) (db.postConsumeUserSubscriptionDelta none i delta)
      (NewApi.postConsumeUserSubscriptionDelta false i delta.toInt st) := by
  unfold SubDB.postConsumeUserSubscriptionDelta NewApi.postConsumeUserSubscriptionDelta
  by_cases hi : i = 0
  · rw [if_pos hi, if_pos hi]
    exact .failed
  have hzero : delta.toInt = 0 ↔ delta = 0 := by rw [← Int64.toInt_zero, Int64.toInt_inj]
  by_cases hdelta : delta = 0
  · simpa [hi, hdelta] using .ok h
  cases hrow : db.subs.row i with
  | none => simpa [hi, hdelta, hzero, h.find hown, hrow] using .failed
  | some sub =>
    have hu := hown sub hrow
    have hused := SubRow.usedAfter_toInt (i := i) (h.used i sub hrow) (hfits sub hrow)
    have hsaved := h.save (r := { sub with amountUsed := sub.usedAfter delta }) hrow hu hu (by rw [hused]; omega)
    have hsub : { sub with amountUsed := sub.usedAfter delta }.userSubscription i =
        (sub.userSubscription i).withUsed ((sub.userSubscription i).amountUsed + delta.toInt).toNat := by
      simp only [userSubscription, hused]
      rfl
    have hover : 0 < sub.amountTotal ∧ sub.amountTotal < sub.usedAfter delta ↔
        0 < (sub.userSubscription i).amountTotal ∧ (sub.userSubscription i).amountTotal <
          ((sub.userSubscription i).amountUsed + delta.toInt).toNat := by
      rw [← hused]
      simp [Int64.lt_iff_toInt_lt]
    rw [hsub] at hsaved
    simp only [hi, hdelta, hzero, h.find hown, hrow, Option.map_some, hover, if_false, reduceCtorEq, or_false,
      Bool.false_eq_true]
    split_ifs
    · exact .failed
    · exact .ok hsaved

/-- **A refund** is the one on amounts without bounds. -/
theorem SubDB.Shows.refund (h : db.Shows u st)
    (hown : ∀ rec, db.records requestId = some rec → db.Owns u rec.userSubscriptionId) :
    let r := db.refundSubscriptionPreConsume none requestId
    let r' := NewApi.refundSubscriptionPreConsume .none requestId st
    r.1.Shows u r'.1 ∧ r.2.isNone = r'.2.isNone := by
  unfold SubDB.refundSubscriptionPreConsume NewApi.refundSubscriptionPreConsume
  by_cases hblank : isBlank requestId
  · simpa [hblank] using h
  cases hrec : db.records requestId with
  | none => simpa [hblank, h.records, hrec] using h
  | some rec =>
    have hrec' : st.records requestId = some rec.record := by simp [h.records, hrec]
    simp only [hblank, hrec', Bool.false_eq_true, if_false]
    by_cases hrefunded : rec.refunded
    · simpa [hrefunded, SubRecord.record] using h
    have hmarked {db : SubDB} {st : SubStore} (h : db.Shows u st) :=
      h.setRecord requestId { rec with refunded := true }
    have hnone : rec.preConsumed ≤ 0 ↔ rec.preConsumed.toInt ≤ 0 := by simp [Int64.le_iff_toInt_le]
    by_cases hpos : rec.preConsumed.toInt ≤ 0
    · simpa [hrefunded, SubRecord.record, hnone, hpos] using hmarked h
    have hneg : (-rec.preConsumed).toInt = -rec.preConsumed.toInt := by
      have hlt := rec.preConsumed.toInt_lt
      simp only [Int64.toInt_neg, Int.bmod]
      omega
    have hpost := h.postConsume (-rec.preConsumed) (hown rec hrec) (by
      intro sub _
      have hused := sub.amountUsed.toInt_lt
      omega)
    rw [hneg] at hpost
    simp only [hrefunded, SubRecord.record, hnone, hpos, if_false, Bool.false_eq_true, reduceCtorEq, or_self,
      Option.bind_none, Option.any_none]
    generalize db.postConsumeUserSubscriptionDelta none rec.userSubscriptionId (-rec.preConsumed) = x,
      NewApi.postConsumeUserSubscriptionDelta false rec.userSubscriptionId (-rec.preConsumed.toInt) st = y at hpost ⊢
    cases hpost with
    | failed => exact ⟨h, rfl⟩
    | ok h => exact ⟨hmarked h, rfl⟩

/-! ### The charge -/

def SubWorld.env (w : SubWorld) (now : ℤ) : SubEnv :=
  ⟨w.cal.toCalendar, fun id => (w.planById id).toOption.map (·.toSubscriptionPlan), now⟩

theorem SubRow.maybeReset_eq (cal : Calendar) (plan : SubscriptionPlan) (sub : SubRow) :
    NewApi.maybeReset cal plan now (sub.userSubscription i) = match sub.resetOutcome cal plan now with
      | .unchanged => some (sub.userSubscription i)
      | .scheduled last next => some ({ sub with lastResetTime := last, nextResetTime := next }.userSubscription i)
      | .reset last next => some ((sub.restarted last next).userSubscription i)
      | .hangs => none := by
  unfold NewApi.maybeReset resetOutcome
  simp only [resetBase, userSubscription]
  by_cases hlater : 0 < sub.nextResetTime ∧ now < sub.nextResetTime
  · simp [hlater]
  by_cases hnever : plan.quotaResetPeriod = .never
  · simp [hlater, hnever]
  simp only [hlater, hnever, if_false]
  generalize catchUp _ _ _ _ _ _ _ _ = c
  rcases c with - | ⟨base, next, - | -⟩
  · rfl
  · simp only [Bool.false_eq_true, if_false]
    split_ifs <;> simp
  · rfl

theorem SubDB.Shows.maybeReset (h : db.Shows u st) (w : SubWorld) (plan : PlanRow) (now : ℤ)
    (hrow : db.subs.row i = some sub) (hu : sub.userId = u) :
    let r := NewApi.maybeReset (w.env now).cal plan.toSubscriptionPlan (w.env now).now (sub.userSubscription i)
    match db.maybeReset w plan now i sub with
    | .error _ => r = none
    | .ok (sub', db') => r = some (sub'.userSubscription i) ∧ sub'.userId = u ∧
        db'.Shows u { st with table := st.table.save (sub'.userSubscription i) } := by
  have hused := h.used i sub hrow
  have hfind : st.table.find (sub.userSubscription i).id = some (sub.userSubscription i) := by
    rw [h.find, hrow]
    · rfl
    · exact fun row hrow' => Option.some.inj (hrow.symm.trans hrow') ▸ hu
  rw [SubRow.maybeReset_eq]
  simp only [SubDB.maybeReset, SubWorld.env]
  cases sub.resetOutcome w.cal.toCalendar plan.toSubscriptionPlan now with
  | unchanged => exact ⟨rfl, hu, by rw [SubTable.save_find hfind]; exact h⟩
  | scheduled => exact ⟨rfl, hu, h.save hrow hu hu hused⟩
  | reset last next =>
    have hsaved := h.save (r := sub.restarted last next) hrow hu hu le_rfl
    exact ⟨rfl, hu, hsaved.rows, hsaved.records, hsaved.used⟩
  | hangs => rfl

theorem SubRow.short_iff (h0 : 0 ≤ sub.amountUsed.toInt) (hpos : 0 < amount.toInt) :
    0 < sub.amountTotal ∧ sub.amountTotal - sub.amountUsed < amount ↔ 0 < (sub.userSubscription i).amountTotal ∧
      (sub.userSubscription i).amountTotal - (sub.userSubscription i).amountUsed < amount.toInt := by
  have htotal := sub.amountTotal.toInt_lt
  have hused := sub.amountUsed.toInt_lt
  simp only [Int64.lt_iff_toInt_lt, Int64.toInt_sub, Int64.toInt_zero, Int.bmod]
  omega

theorem SubRow.charged_eq (h0 : 0 ≤ sub.amountUsed.toInt) (hpos : 0 < amount.toInt)
    (hfits : sub.amountUsed.toInt + amount.toInt < 2 ^ 63) :
    0 ≤ (sub.charged amount).amountUsed.toInt ∧ (sub.charged amount).userSubscription i =
      (sub.userSubscription i).withUsed ((sub.userSubscription i).amountUsed + amount.toInt.toNat) := by
  have hsum : (sub.amountUsed + amount).toInt = sub.amountUsed.toInt + amount.toInt := by
    simp only [Int64.toInt_add, Int.bmod]
    omega
  simp only [charged, UserSubscription.withUsed, hsum, UserSubscription.mk.injEq, true_and, and_true]
  omega

/-- The loop over the candidates, and the charge of the one it chooses -/
theorem SubDB.Shows.chooseFrom (h : db.Shows u st) (w : SubWorld) (now : ℤ) (hcur : Current db l)
    (hpos : 0 < amount.toInt)
    (hl : ∀ e ∈ l, e.2.userId = u ∧ e.2.amountUsed.toInt + amount.toInt < 2 ^ 63) :
    BothFit (fun c p => p.1.userSubscriptionId = c.1 ∧
        (c.2.2.save c.1 (c.2.1.charged amount)).Shows u { st with table := p.2 })
      (db.chooseFrom w now amount l)
      (preConsumeFrom (w.env now) amount.toInt (l.map fun e => e.2.userSubscription e.1) st.table) := by
  induction l generalizing db st with
  | nil => exact .failed
  | cons e l ih =>
    obtain ⟨k, candidate⟩ := e
    have hrow : db.subs.row k = some candidate := hcur.head
    obtain ⟨hu, hold⟩ := hl _ mem_cons_self
    rw [map_cons]
    unfold SubDB.chooseFrom preConsumeFrom
    cases hplan : w.planById candidate.planId with
    | error => simpa [SubWorld.env, hplan, Except.toOption] using .failed
    | ok plan =>
      have hplan' : (w.env now).plans candidate.planId = some plan.toSubscriptionPlan := by
        simp [SubWorld.env, hplan, Except.toOption]
      have hreset := h.maybeReset w plan now hrow hu
      cases hdb : db.maybeReset w plan now k candidate with
      | error =>
        simp only [hdb] at hreset
        simp only [hplan', hdb, hreset]
        exact .failed
      | ok r =>
        obtain ⟨sub, db'⟩ := r
        simp only [hdb] at hreset
        obtain ⟨hsub, hu', hshows⟩ := hreset
        obtain ⟨hrow', hto, hothers, -⟩ := maybeReset_row hrow hdb
        have h0 := hshows.used k sub hrow'
        have hfit : sub.amountUsed.toInt + amount.toInt < 2 ^ 63 := by
          have hlt := amount.toInt_lt
          rcases hto.used with hused | hused <;> rw [hused]
          · exact hold
          · simpa using hlt
        simp only [hplan', hdb, hsub, SubRow.short_iff (i := k) h0 hpos]
        split_ifs
        · exact ih hshows (hcur.tail hothers) fun e he => hl e (mem_cons_of_mem _ he)
        · obtain ⟨hused, hcharged⟩ := SubRow.charged_eq (i := k) h0 hpos hfit
          have hsaved := hshows.save (r := sub.charged amount) hrow' hu' hu' hused
          rw [hcharged, SubTable.save_save (by rfl)] at hsaved
          exact .ok ⟨rfl, hsaved⟩

theorem SubDB.Shows.candidates (h : db.Shows u st) :
    st.table.activeSubs now = (db.candidates now u).map fun e => e.2.userSubscription e.1 := by
  unfold SubTable.activeSubs SubDB.candidates byEndTime
  rw [h.rows, filter_map, filter_filter]
  refine ((map_insertionSort _ _ _ _ ?_).trans (congrArg _ (congrArg _ (filter_congr fun e _ => ?_)))).symm
  · exact fun _ _ _ _ => Iff.rfl
  · simp [Bool.and_comm, Bool.and_assoc]

/-- **A charge whose sums do not overflow** is the one on amounts without bounds. -/
theorem SubDB.Shows.preConsume (h : db.Shows u st) (hu : u ≠ 0)
    (hown : ∀ rec, db.records requestId = some rec → db.Owns u rec.userSubscriptionId)
    (hfits : ∀ i sub, db.subs.row i = some sub → sub.amountUsed.toInt + amount.toInt < 2 ^ 63) :
    BothFit (fun c p => p.1.userSubscriptionId = c.1.userSubscriptionId ∧ c.2.Shows u p.2)
      (db.preConsumeUserSubscription w now requestId u amount)
      (NewApi.preConsumeUserSubscription (w.env now) false requestId amount.toInt st) := by
  unfold SubDB.preConsumeUserSubscription NewApi.preConsumeUserSubscription preConsumeRefused
  by_cases hblank : isBlank requestId
  · simpa [hu, hblank] using .failed
  have hnone : amount ≤ 0 ↔ amount.toInt ≤ 0 := by simp [Int64.le_iff_toInt_le]
  by_cases hpos : amount.toInt ≤ 0
  · simpa [hu, hblank, hnone, hpos] using .failed
  simp only [hu, hblank, hnone, hpos, if_false, Bool.false_eq_true]
  cases hrec : db.records requestId with
  | some rec =>
    simp only [h.records, comp, hrec, Option.map_some, SubRecord.record, h.find (hown rec hrec)]
    cases db.subs.row rec.userSubscriptionId with
    | none => split_ifs <;> exact .failed
    | some =>
      split_ifs
      · exact .failed
      · exact .ok ⟨rfl, h⟩
  | none =>
    have hrec' : st.records requestId = none := by simp [h.records, hrec]
    have hcur : Current db (db.candidates now u) := db.candidates_current u
    have hchoose := h.chooseFrom w now hcur (not_le.1 hpos) (by
      intro e he
      have huser := (mem_filter.1 ((byEndTime_perm _).mem_iff.1 he)).2
      simp only [Bool.and_eq_true, decide_eq_true_eq] at huser
      exact ⟨huser.1.1, hfits e.1 e.2 (hcur.row e he)⟩)
    simp only [hrec', show (w.env now).now = now from rfl, h.candidates]
    cases hl : db.candidates now u with
    | nil => exact .failed
    | cons e l =>
      rw [hl] at hchoose
      simp only [map_cons] at hchoose ⊢
      generalize db.chooseFrom w now amount (e :: l) = x, preConsumeFrom (w.env now) amount.toInt _ st.table = y
        at hchoose ⊢
      cases hchoose with
      | failed => exact .failed
      | @ok c p h =>
        refine .ok ⟨h.1, ?_⟩
        simp only [h.1]
        exact h.2.setRecord requestId ⟨c.1, amount, false⟩

end NewApi
