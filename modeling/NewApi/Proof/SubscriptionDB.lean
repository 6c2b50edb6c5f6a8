import NewApi.Spec.SubscriptionDB
import NewApi.Proof.Levels
import NewApi.Trace.Run

/-!
# What the calls on the subscription tables write

Every transaction on the used amounts is a sequence of writes of single rows, `QuotaMove`: a reset by the calendar or
an administrator, a charge that fits, a delta that fits.
-/

namespace NewApi

open Trace SubDB Function List Option SubRow Except

variable {t : SubRows} {i j : ℕ} {r r' sub sub' : SubRow} {w : SubWorld} {plan : PlanRow} {now : ℤ} {db db' : SubDB}
  {op : SubOp}

namespace SubRows

theorem lt_of_row (h : t.row i = some r) : i < t.nextId := by
  by_contra hlt
  rw [t.fresh i (by omega)] at h
  cases h

theorem set_row_self (h : t.row i = some r) (o : Option SubRow) : (t.set i o).row i = o := by
  have hlt := lt_of_row h
  simp [set, if_pos hlt]

theorem set_row_ne (h : j ≠ i) (o : Option SubRow) : (t.set i o).row j = t.row j := by
  simp only [set]
  split
  · exact update_of_ne h _ _
  · rfl

theorem set_row_cases {o : Option SubRow} (h : (t.set i o).row j = some r) :
    (j = i ∧ o = some r) ∨ t.row j = some r := by
  simp only [set] at h
  split at h
  · by_cases hj : j = i
    · subst hj
      rw [update_self] at h
      exact .inl ⟨rfl, h⟩
    · rw [update_of_ne hj] at h
      exact .inr h
  · exact .inr h

theorem insert_row_cases (h : (t.insert r').row j = some r) : (j = t.nextId ∧ r = r') ∨ t.row j = some r := by
  simp only [insert] at h
  by_cases hj : j = t.nextId
  · subst hj
    rw [update_self, some.injEq] at h
    exact .inl ⟨rfl, h.symm⟩
  · rw [update_of_ne hj] at h
    exact .inr h

theorem mem_entries : (i, r) ∈ t.entries ↔ t.row i = some r := by
  simp only [entries, mem_filterMap, mem_range, map_eq_some_iff, Prod.mk.injEq]
  constructor
  · rintro ⟨k, -, r', hr', rfl, rfl⟩
    exact hr'
  · intro h
    exact ⟨i, lt_of_row h, r, h, rfl, rfl⟩

theorem entries_nodup (t : SubRows) : (t.entries.map (·.1)).Nodup := by
  have hsub : (t.entries.map (·.1)).Sublist (range t.nextId) := by
    rw [entries, map_filterMap]
    induction range t.nextId with
    | nil => exact List.Sublist.slnil
    | cons k ks ih =>
      rw [filterMap_cons]
      cases t.row k with
      | none => exact ih.cons k
      | some => exact ih.cons_cons k
  exact hsub.nodup nodup_range

end SubRows

structure Current (db : SubDB) (l : List (ℕ × SubRow)) : Prop where
  row : ∀ e ∈ l, db.subs.row e.1 = some e.2
  nodup : (l.map (·.1)).Nodup

namespace Current

variable {l l' : List (ℕ × SubRow)}

theorem of_query (p : ℕ × SubRow → Bool) (h : l.Perm (db.subs.entries.filter p)) : Current db l where
  row := by
    intro e he
    exact SubRows.mem_entries.1 (mem_of_mem_filter (h.mem_iff.1 he))
  nodup := by
    have hsub : ((db.subs.entries.filter p).map (·.1)).Sublist (db.subs.entries.map (·.1)) := filter_sublist.map _
    exact ((h.map _).nodup_iff).2 (db.subs.entries_nodup.sublist hsub)

theorem head {e : ℕ × SubRow} (h : Current db (e :: l)) : db.subs.row e.1 = some e.2 := h.row e mem_cons_self

theorem tail {e : ℕ × SubRow} (h : Current db (e :: l)) (hdb : ∀ k, k ≠ e.1 → db'.subs.row k = db.subs.row k) :
    Current db' l where
  row := by
    intro e' he'
    have hne : e'.1 ≠ e.1 := by
      intro heq
      have hnot := (nodup_cons.1 h.nodup).1
      exact hnot (mem_map.2 ⟨e', he', heq⟩)
    rw [hdb _ hne]
    exact h.row e' (mem_cons_of_mem _ he')
  nodup := (nodup_cons.1 h.nodup).2

end Current

theorem byEndTime_perm (l : List (ℕ × SubRow)) : (byEndTime l).Perm l := perm_insertionSort _ _

def SubOp.onQuota : SubOp → Bool
  | .preConsume .. | .postConsume .. | .refund .. | .refundWithRetry .. | .resetDue .. | .adminResetUser ..
  | .adminResetPlan .. => true
  | _ => false

def SubOp.recordId : SubOp → Option String
  | .preConsume requestId .. | .refund requestId _ | .refundWithRetry requestId .. => some requestId
  | _ => none

def SubOp.resets (op : SubOp) (advanceResetTime : Bool) (sub : SubRow) : Bool :=
  match op with
  | .adminResetUser userId planId adv _ =>
    adv = advanceResetTime && decide (sub.userId = userId) && decide (sub.planId = planId)
  | .adminResetPlan planId adv _ => adv = advanceResetTime && decide (sub.planId = planId)
  | _ => false

inductive QuotaMove (w : SubWorld) (now : ℤ) (op : SubOp) (db : SubDB) : SubDB → Prop
  | automatic {i sub plan last next} : db.subs.row i = some sub → w.planById sub.planId = .ok plan →
      sub.resetOutcome w.cal.toCalendar plan.toSubscriptionPlan now = .reset last next →
      QuotaMove w now op db (db.saveReset i (sub.restarted last next) now .automatic)
  | scheduled {i sub plan last next} : db.subs.row i = some sub → w.planById sub.planId = .ok plan →
      sub.resetOutcome w.cal.toCalendar plan.toSubscriptionPlan now = .scheduled last next →
      QuotaMove w now op db (db.save i { sub with lastResetTime := last, nextResetTime := next })
  | charged {i sub amount} : db.subs.row i = some sub → 0 < amount →
      ¬ (0 < sub.amountTotal ∧ sub.amountTotal - sub.amountUsed < amount) →
      QuotaMove w now op db (db.save i (sub.charged amount))
  | moved {i sub newUsed} : db.subs.row i = some sub → 0 ≤ newUsed →
      ¬ (0 < sub.amountTotal ∧ sub.amountTotal < newUsed) →
      QuotaMove w now op db (db.save i { sub with amountUsed := newUsed })
  | admin {i sub plan advanceResetTime} : db.subs.row i = some sub → w.planById sub.planId = .ok plan →
      op.resets advanceResetTime sub = true → sub.status = .active → now < sub.endTime →
      QuotaMove w now op db (db.saveReset i
        (sub.adminReset w.cal.toCalendar plan.toSubscriptionPlan now advanceResetTime) now
        (if advanceResetTime then .advanced else .plain))
  | recorded {id record} : op.recordId = some id →
      QuotaMove w now op db { db with records := Function.update db.records id record }

abbrev QuotaMoves (w : SubWorld) (now : ℤ) (op : SubOp) : SubDB → SubDB → Prop :=
  Relation.ReflTransGen (QuotaMove w now op)

/-- What no spend, refund or reset changes: the terms that the subscription was bought on, and its status. -/
def SubRow.terms (sub : SubRow) : ℕ × ℕ × SubStatus × ℤ × ℤ × String × String × String :=
  (sub.userId, sub.planId, sub.status, sub.startTime, sub.endTime, sub.upgradeGroup, sub.prevUserGroup,
    sub.downgradeGroup)

theorem SubRows.set_terms {t : SubRows} (hrow : t.row i = some sub) (hterms : sub'.terms = sub.terms) (j : ℕ) :
    ((t.set i (some sub')).row j).map terms = (t.row j).map terms := by
  by_cases hj : j = i
  · subst hj
    rw [set_row_self hrow, hrow, map_some, map_some, hterms]
  · rw [set_row_ne hj]

theorem SubRow.adminReset_terms (cal : Calendar) (p : SubscriptionPlan) (adv : Bool) (sub : SubRow) :
    (sub.adminReset cal p now adv).terms = sub.terms := by
  unfold adminReset
  split <;> rfl

theorem QuotaMove.terms (h : QuotaMove w now op db db') (j : ℕ) :
    (db'.subs.row j).map terms = (db.subs.row j).map terms := by
  cases h with
  | automatic hrow | scheduled hrow | charged hrow | moved hrow => exact SubRows.set_terms hrow (by rfl) j
  | admin hrow => exact SubRows.set_terms hrow (adminReset_terms _ _ _ _) j
  | recorded => rfl

structure SubRow.ResetTo (r m : SubRow) : Prop where
  terms : m.terms = r.terms
  total : m.amountTotal = r.amountTotal
  used : m.amountUsed = r.amountUsed ∨ m.amountUsed = 0

theorem SubRow.ResetTo.refl (r : SubRow) : r.ResetTo r := ⟨rfl, rfl, .inl rfl⟩

theorem SubRow.ResetTo.userId {m : SubRow} (h : r.ResetTo m) : m.userId = r.userId := congrArg (·.1) h.terms

theorem SubRow.ResetTo.planId {m : SubRow} (h : r.ResetTo m) : m.planId = r.planId := congrArg (·.2.1) h.terms

theorem SubRow.ResetTo.trans {m m' : SubRow} (h : r.ResetTo m) (h' : m.ResetTo m') : r.ResetTo m' := by
  refine ⟨h'.terms.trans h.terms, h'.total.trans h.total, ?_⟩
  rcases h'.used with hu | hu
  · rw [hu]
    exact h.used
  · exact .inr hu

theorem SubDB.maybeReset_row (hrow : db.subs.row i = some sub) (h : db.maybeReset w plan now i sub = .ok (sub', db')) :
    db'.subs.row i = some sub' ∧ sub.ResetTo sub' ∧ (∀ k, k ≠ i → db'.subs.row k = db.subs.row k) ∧
      db'.subs.nextId = db.subs.nextId := by
  unfold maybeReset at h
  split at h
  · obtain ⟨rfl, rfl⟩ := h
    exact ⟨hrow, .refl _, fun k _ => rfl, rfl⟩
  · obtain ⟨rfl, rfl⟩ := h
    exact ⟨SubRows.set_row_self hrow _, ⟨rfl, rfl, .inl rfl⟩, fun k hk => SubRows.set_row_ne hk _, rfl⟩
  · obtain ⟨rfl, rfl⟩ := h
    exact ⟨SubRows.set_row_self hrow _, ⟨rfl, rfl, .inr rfl⟩, fun k hk => SubRows.set_row_ne hk _, rfl⟩
  · cases h

theorem SubDB.maybeReset_moves (hrow : db.subs.row i = some sub) (hplan : w.planById sub.planId = .ok plan)
    (h : db.maybeReset w plan now i sub = .ok (sub', db')) : QuotaMoves w now op db db' := by
  unfold maybeReset at h
  split at h
  · obtain ⟨-, rfl⟩ := h
    exact .refl
  · rename_i last next hout
    obtain ⟨-, rfl⟩ := h
    exact .single (.scheduled hrow hplan hout)
  · rename_i last next hout
    obtain ⟨-, rfl⟩ := h
    exact .single (.automatic hrow hplan hout)
  · cases h

structure ResetWithin (db db' : SubDB) (ids : List ℕ) : Prop where
  nextId : db'.subs.nextId = db.subs.nextId
  others : ∀ j, j ∉ ids → db'.subs.row j = db.subs.row j
  rows : ∀ j r, db.subs.row j = some r → ∃ m, db'.subs.row j = some m ∧ r.ResetTo m

namespace ResetWithin

variable {db₁ : SubDB} {ids : List ℕ}

theorem head (hrow : db.subs.row i = some sub) (h : db.maybeReset w plan now i sub = .ok (sub', db')) :
    ResetWithin db db' (i :: ids) := by
  obtain ⟨hrow', hreset, hothers, hnext⟩ := maybeReset_row hrow h
  refine ⟨hnext, ?_, ?_⟩
  · intro j hj
    exact hothers j (ne_of_not_mem_cons hj)
  intro j r hr
  by_cases hj : j = i
  · subst hj
    obtain rfl := some.inj (hrow.symm.trans hr)
    exact ⟨sub', hrow', hreset⟩
  · exact ⟨r, (hothers j hj).trans hr, .refl r⟩

theorem trans (h : ResetWithin db db₁ (i :: ids)) (h' : ResetWithin db₁ db' ids) : ResetWithin db db' (i :: ids) where
  nextId := h'.nextId.trans h.nextId
  others := by
    intro j hj
    exact (h'.others j (not_mem_of_not_mem_cons hj)).trans (h.others j hj)
  rows := by
    intro j r hr
    obtain ⟨m1, hm1, hreset1⟩ := h.rows j r hr
    obtain ⟨m, hm, hreset⟩ := h'.rows j m1 hm1
    exact ⟨m, hm, hreset1.trans hreset⟩

end ResetWithin

variable {l : List (ℕ × SubRow)} {amount : Int64} {res : SubscriptionResetResult}

theorem SubDB.chooseFrom_row (hcur : Current db l) (h : db.chooseFrom w now amount l = .ok (i, sub, db')) :
    i ∈ l.map (·.1) ∧ db'.subs.row i = some sub ∧ ¬ (0 < sub.amountTotal ∧ sub.amountTotal - sub.amountUsed < amount) ∧
      ResetWithin db db' (l.map (·.1)) := by
  induction l generalizing db with
  | nil => cases h
  | cons e l ih =>
    obtain ⟨k, candidate⟩ := e
    unfold chooseFrom at h
    split at h
    · cases h
    split at h
    · cases h
    rename_i sub1 db₁ hreset
    obtain ⟨hrow, -, hothers, -⟩ := maybeReset_row hcur.head hreset
    have hfirst : ResetWithin db db₁ (((k, candidate) :: l).map (·.1)) := .head hcur.head hreset
    split_ifs at h with hfits
    · -- too small: the loop goes on with its reset saved
      obtain ⟨hmem, hchosen, hfits, hrest⟩ := ih (hcur.tail hothers) h
      exact ⟨mem_cons_of_mem _ hmem, hchosen, hfits, hfirst.trans hrest⟩
    obtain ⟨rfl, rfl, rfl⟩ := h
    exact ⟨mem_cons_self, hrow, hfits, hfirst⟩

theorem SubDB.chooseFrom_moves (hcur : Current db l)
    (h : db.chooseFrom w now amount l = .ok (i, sub, db')) : QuotaMoves w now op db db' := by
  induction l generalizing db with
  | nil => cases h
  | cons e l ih =>
    unfold chooseFrom at h
    split at h
    · cases h
    rename_i plan hplan
    split at h
    · cases h
    rename_i sub1 db₁ hreset
    have hmoves : QuotaMoves w now op db db₁ := maybeReset_moves hcur.head hplan hreset
    obtain ⟨-, -, hothers, -⟩ := maybeReset_row hcur.head hreset
    split at h
    · exact hmoves.trans (ih (hcur.tail hothers) h)
    obtain ⟨-, -, rfl⟩ := h
    exact hmoves

theorem SubDB.candidates_current (db : SubDB) (userId : ℕ) : Current db (db.candidates now userId) :=
  .of_query _ (byEndTime_perm _)

theorem pos_of_preConsumeRefused {requestId : String} {userId : ℕ}
    (h : preConsumeRefused requestId userId amount = none) : 0 < amount := by
  unfold preConsumeRefused at h
  split_ifs at h with _ _ ha
  · exact Int64.not_le.1 ha

theorem SubDB.preConsume_moves {requestId : String} {userId : ℕ} {charge : SubCharge}
    (hop : op.recordId = some requestId)
    (h : db.preConsumeUserSubscription w now requestId userId amount = .ok (charge, db')) :
    QuotaMoves w now op db db' := by
  unfold preConsumeUserSubscription at h
  split at h
  · cases h
  rename_i hargs
  split at h
  · split at h
    · cases h
    split at h
    · cases h
    obtain ⟨-, rfl⟩ := h
    exact .refl
  · split at h
    · cases h
    split at h
    · cases h
    rename_i i sub db₁ hchoose
    obtain ⟨-, rfl⟩ := h
    have hmoves : QuotaMoves w now op db db₁ := chooseFrom_moves (db.candidates_current userId) hchoose
    obtain ⟨-, hrow, hfits, -⟩ := chooseFrom_row (db.candidates_current userId) hchoose
    exact (hmoves.tail (.charged hrow (pos_of_preConsumeRefused hargs) hfits)).tail (.recorded hop)

theorem SubRow.usedAfter_nonneg (sub : SubRow) (delta : Int64) : 0 ≤ sub.usedAfter delta := by
  unfold usedAfter
  split
  · exact Int64.le_refl _
  · exact Int64.not_lt.1 ‹_›

theorem SubDB.postConsume_moves {failing : Option DeltaStatement} {delta : Int64}
    (h : db.postConsumeUserSubscriptionDelta failing i delta = .ok db') : QuotaMoves w now op db db' := by
  unfold postConsumeUserSubscriptionDelta at h
  split at h
  · cases h
  split at h
  · cases h; exact .refl
  split at h
  · cases h
  split at h
  · cases h
  rename_i sub hrow
  split_ifs at h with hfits
  cases h
  exact .single (.moved hrow (sub.usedAfter_nonneg delta) hfits)

theorem SubDB.refund_moves (failing : Option RefundStatement) (requestId : String)
    (hop : op.recordId = some requestId) :
    QuotaMoves w now op db (db.refundSubscriptionPreConsume failing requestId).1 := by
  unfold refundSubscriptionPreConsume
  split
  · exact .refl
  split
  · exact .refl
  split
  · exact .refl
  split
  · exact .refl
  split
  · split
    · exact .refl
    · exact .single (.recorded hop)
  split
  · exact .refl
  rename_i db₁ hdelta
  have hmoves : QuotaMoves w now op db db₁ := postConsume_moves hdelta
  split
  · exact hmoves
  · exact hmoves.tail (.recorded hop)

theorem SubDB.refundAttempts_moves (requestId : String) (lastErr : Option SubErr)
    (attempts : List (Option RefundStatement)) (hop : op.recordId = some requestId) :
    QuotaMoves w now op db (db.refundAttempts requestId lastErr attempts).1 := by
  induction attempts generalizing db lastErr with
  | nil => exact .refl
  | cons failing rest ih =>
    have hmoves : QuotaMoves w now op db (db.refundSubscriptionPreConsume failing requestId).1 :=
      refund_moves failing requestId hop
    unfold refundAttempts
    split
    · rename_i db₁ hr
      rw [hr] at hmoves
      exact hmoves
    rename_i db₁ e hr
    rw [hr] at hmoves
    exact hmoves.trans (ih _)

theorem SubDB.resetLocked_moves (hplan : ∀ sub, db.subs.row i = some sub → w.planById sub.planId = .ok plan)
    (h : db.resetLocked w plan now i = .ok db') :
    QuotaMoves w now op db db' ∧ (∀ k, k ≠ i → db'.subs.row k = db.subs.row k) ∧
      ∀ r', db'.subs.row i = some r' → ∃ r, db.subs.row i = some r ∧ r'.planId = r.planId := by
  unfold resetLocked at h
  split at h
  · cases h
    exact ⟨.refl, fun k _ => rfl, fun r' hr' => ⟨r', hr', rfl⟩⟩
  rename_i locked hrow
  split at h
  · obtain ⟨⟨sub', db₁⟩, hreset, rfl⟩ := map_eq_ok h
    obtain ⟨hrow', hkept, hothers, -⟩ := maybeReset_row hrow hreset
    refine ⟨maybeReset_moves hrow (hplan _ hrow) hreset, hothers, ?_⟩
    intro r' hr'
    rw [hrow', some.injEq] at hr'
    subst hr'
    exact ⟨locked, hrow, hkept.planId⟩
  · cases h
    exact ⟨.refl, fun k _ => rfl, fun r' hr' => ⟨r', hr', rfl⟩⟩

theorem SubDB.resetDueFrom_moves {failing : List ℕ}
    (hplans : ∀ e ∈ l, ∀ r, db.subs.row e.1 = some r → r.planId = e.2.planId) :
    QuotaMoves w now op db (db.resetDueFrom w now failing l).1 := by
  induction l generalizing db with
  | nil => exact .refl
  | cons e l ih =>
    obtain ⟨i, sub⟩ := e
    have hrest : ∀ e ∈ l, ∀ r, db.subs.row e.1 = some r → r.planId = e.2.planId :=
      fun e he => hplans e (mem_cons_of_mem _ he)
    unfold resetDueFrom
    split
    · exact ih hrest
    rename_i plan hplan
    have hplan' : ∀ r, db.subs.row i = some r → w.planById r.planId = .ok plan := by
      intro r hr
      rw [hplans _ mem_cons_self r hr]
      exact hplan
    split
    · exact .refl
    rename_i db₁ hlocked
    obtain ⟨hmoves, hothers, hsame⟩ := resetLocked_moves hplan' hlocked
    split
    · exact .refl
    apply hmoves.trans
    apply ih
    intro e he r hr
    by_cases hei : e.1 = i
    · rw [hei] at hr
      obtain ⟨r0, hr0, hpid⟩ := hsame r hr
      rw [hpid]
      exact hrest e he r0 (by rw [hei]; exact hr0)
    · rw [hothers _ hei] at hr
      exact hrest e he r hr

theorem SubDB.resetDue_moves (limit : ℤ) (failing : List ℕ) :
    QuotaMoves w now op db (db.resetDueSubscriptions w now limit failing).1 := by
  apply resetDueFrom_moves
  intro e he r hr
  have hmem : e ∈ db.dueForReset now := mem_of_mem_take he
  have hcur : Current db (db.dueForReset now) := .of_query _ (perm_insertionSort _ _)
  rw [hcur.row e hmem, some.injEq] at hr
  rw [hr]

theorem SubDB.adminResetFrom_moves {adv : Bool} {planId : ℕ}
    (hplan : w.planById planId = .ok plan) (hcur : Current db l)
    (hl : ∀ e ∈ l, e.2.planId = planId ∧ op.resets adv e.2 = true ∧ e.2.status = .active ∧ now < e.2.endTime) :
    QuotaMoves w now op db (db.adminResetFrom w plan now adv l) := by
  induction l generalizing db with
  | nil => exact .refl
  | cons e l ih =>
    obtain ⟨i, sub⟩ := e
    obtain ⟨hpid, hop, hactive, hend⟩ := hl _ mem_cons_self
    have hplan' : w.planById sub.planId = .ok plan := hpid ▸ hplan
    apply Relation.ReflTransGen.head (.admin hcur.head hplan' hop hactive hend)
    apply ih
    · exact hcur.tail fun k hk => SubRows.set_row_ne hk _
    · exact fun e he => hl e (mem_cons_of_mem _ he)

theorem SubDB.adminResetUser_moves {userId planId : ℕ} {adv dbErr : Bool}
    (h : db.adminResetUserSubscriptionsByPlan w now userId planId adv = .ok (res, db')) :
    QuotaMoves w now (.adminResetUser userId planId adv dbErr) db db' := by
  unfold adminResetUserSubscriptionsByPlan at h
  split at h
  · cases h
  split at h
  · cases h
  rename_i plan hplan
  split at h
  · cases h
  obtain ⟨-, rfl⟩ := h
  apply adminResetFrom_moves hplan (.of_query _ (byEndTime_perm _))
  intro e he
  have hmem := of_mem_filter ((byEndTime_perm _).mem_iff.1 he)
  simp only [Bool.and_eq_true, decide_eq_true_eq] at hmem
  obtain ⟨⟨⟨huser, hpid⟩, hactive⟩, hend⟩ := hmem
  exact ⟨hpid, by simp [SubOp.resets, huser, hpid], hactive, hend⟩

theorem SubDB.adminResetPlan_moves {planId : ℕ} {adv dbErr : Bool}
    (h : db.adminResetPlanSubscriptions w now planId adv = .ok (res, db')) :
    QuotaMoves w now (.adminResetPlan planId adv dbErr) db db' := by
  unfold adminResetPlanSubscriptions at h
  split at h
  · cases h
  rename_i plan hplan
  obtain ⟨-, rfl⟩ := h
  have hperm := (perm_insertionSort (fun a b : ℕ × SubRow => a.2.userId ≤ b.2.userId) _).trans
    (byEndTime_perm (db.subs.entries.filter fun e => e.2.planId = planId && e.2.status = .active &&
      decide (now < e.2.endTime)))
  apply adminResetFrom_moves hplan (.of_query _ hperm)
  intro e he
  have hmem := of_mem_filter (hperm.mem_iff.1 he)
  simp only [Bool.and_eq_true, decide_eq_true_eq] at hmem
  obtain ⟨⟨hpid, hactive⟩, hend⟩ := hmem
  exact ⟨hpid, by simp [SubOp.resets, hpid], hactive, hend⟩

theorem SubDB.after_cases (db : SubDB) (dbErr : Bool) (res : Except SubErr SubDB) :
    (db.after dbErr res).1 = db ∨ (res = .ok (db.after dbErr res).1 ∧ (db.after dbErr res).2 = none) := by
  cases res with
  | error => exact .inl rfl
  | ok =>
    cases dbErr with
    | true => exact .inl rfl
    | false => exact .inr ⟨rfl, rfl⟩

theorem SubDB.after_of {P : SubDB → Prop} {dbErr : Bool} {res : Except SubErr SubDB} (h0 : P db)
    (h : ∀ db', res = .ok db' → P db') : P (db.after dbErr res).1 := by
  rcases db.after_cases dbErr res with heq | ⟨hok, -⟩
  · rw [heq]
    exact h0
  · exact h _ hok

/-- **What the calls on the quota write.** -/
theorem SubDB.call_moves (hop : op.onQuota = true) : QuotaMoves w now op db (db.call w now op).1 := by
  cases op with
  | preConsume =>
    apply after_of .refl
    intro db' hok
    obtain ⟨⟨charge, db₁⟩, hpre, rfl⟩ := map_eq_ok hok
    exact preConsume_moves rfl hpre
  | postConsume => exact after_of .refl fun db' hok => postConsume_moves hok
  | refund requestId failing => exact refund_moves failing requestId rfl
  | refundWithRetry requestId => exact refundAttempts_moves requestId none _ rfl
  | resetDue limit failing => exact resetDue_moves limit failing
  | adminResetUser =>
    apply after_of .refl
    intro db' hok
    obtain ⟨⟨res, db₁⟩, hreset, rfl⟩ := map_eq_ok hok
    exact adminResetUser_moves hreset
  | adminResetPlan =>
    apply after_of .refl
    intro db' hok
    obtain ⟨⟨res, db₁⟩, hreset, rfl⟩ := map_eq_ok hok
    exact adminResetPlan_moves hreset
  | create | expireDue | invalidate | delete => cases hop

theorem SubDB.create_ok {userId planId : ℕ} (h : db.createUserSubscriptionFromPlan w now userId planId plan = .ok db') :
    ∃ endUnix, calcPlanEndTime w.cal now plan = .ok endUnix ∧ userId ≠ 0 ∧
      db' = { db.lift userId (trimSpace plan.upgradeGroup) with
        subs := db.subs.insert
          (newUserSubscription w.cal.toCalendar now userId planId plan endUnix (db.groupOf userId)) } := by
  unfold createUserSubscriptionFromPlan at h
  split_ifs at h with _ huser
  split at h
  · cases h
  rename_i endUnix hend
  obtain rfl := ok.inj h
  exact ⟨endUnix, hend, huser, rfl⟩

theorem SubDB.downgradeUserGroup_eq (db : SubDB) (now : ℤ) (i : ℕ) (sub : SubRow) :
    ∃ groups, db.downgradeUserGroup now i sub = { db with groups } := by
  unfold downgradeUserGroup
  cases db.downgradeTarget now i sub with
  | none | some => exact ⟨_, rfl⟩

theorem SubDB.downgradeUserGroup_subs (db : SubDB) (sub : SubRow) :
    (db.downgradeUserGroup now i sub).subs = db.subs := by
  obtain ⟨groups, heq⟩ := db.downgradeUserGroup_eq now i sub
  rw [heq]

theorem SubDB.downgradeUserGroup_records (db : SubDB) (sub : SubRow) :
    (db.downgradeUserGroup now i sub).records = db.records := by
  obtain ⟨groups, heq⟩ := db.downgradeUserGroup_eq now i sub
  rw [heq]

theorem SubDB.invalidate_ok (h : db.adminInvalidateUserSubscription now i = .ok db') : ∃ sub, db.subs.row i = some sub ∧
      db' = (db.save i { sub with status := .cancelled, endTime := now }).downgradeUserGroup now i
        { sub with status := .cancelled, endTime := now } := by
  unfold adminInvalidateUserSubscription at h
  split at h
  · cases h
  split at h
  · cases h
  rename_i sub hrow
  obtain rfl := ok.inj h
  exact ⟨sub, hrow, rfl⟩

theorem SubDB.delete_ok (h : db.adminDeleteUserSubscription now i = .ok db') :
    ∃ sub, db.subs.row i = some sub ∧ db' = { db.downgradeUserGroup now i sub with subs := db.subs.set i none } := by
  unfold adminDeleteUserSubscription at h
  split at h
  · cases h
  split at h
  · cases h
  rename_i sub hrow
  obtain rfl := ok.inj h
  refine ⟨sub, hrow, ?_⟩
  rw [downgradeUserGroup_subs]

theorem SubDB.expireUser_eq (db : SubDB) (now : ℤ) (userId : ℕ) :
    ∃ groups, db.expireUser now userId = { db with subs := db.subs.expire now userId, groups } := by
  unfold expireUser
  dsimp only
  split
  · exact ⟨_, rfl⟩
  split
  · exact ⟨_, rfl⟩
  rename_i lastExpired _
  cases expiryTarget { db with subs := db.subs.expire now userId } userId lastExpired with
  | none | some => exact ⟨_, rfl⟩

theorem SubDB.expireUser_subs (db : SubDB) (userId : ℕ) :
    (db.expireUser now userId).subs = db.subs.expire now userId := by
  obtain ⟨groups, heq⟩ := db.expireUser_eq now userId
  rw [heq]

theorem SubDB.expireUsers_of {P : SubDB → Prop} {failing users : List ℕ} (h0 : P db)
    (hstep : ∀ (db : SubDB) userId, P db → P (db.expireUser now userId)) :
    P (db.expireUsers now failing users).1 := by
  induction users generalizing db with
  | nil => exact h0
  | cons userId rest ih =>
    unfold expireUsers
    split
    · exact h0
    · exact ih (hstep db userId h0)

end NewApi
