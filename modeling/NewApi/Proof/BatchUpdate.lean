import NewApi.Trace.Run
import NewApi.Ledger.Hold
import NewApi.Spec.BatchUpdate

/-!
# No delta is lost between the store and the rows

A value that was passed to `addNewRecord` is in the store, in the local maps of a run of `batchUpdate`, or in its
column. `BatchSystem.total` adds the three up. Every event but a failing update keeps it, up to what it passes to
`addNewRecord` (`total_next`); a failing update is only logged.
-/

namespace NewApi

open Trace BatchSystem BatchEvent BatchRun List QuotaMap AList Function

@[simp] theorem QuotaMap.value_empty (id : ℤ) : value ∅ id = 0 := by
  unfold value
  rw [lookup_empty]
  rfl

theorem QuotaMap.value_of_entries_nil {m : QuotaMap} (h : m.entries = []) (id : ℤ) : m.value id = 0 := by
  have hm : m = ∅ := ext h
  rw [hm, value_empty]

theorem QuotaMap.value_erase (m : QuotaMap) (key id : ℤ) :
    value (m.erase key) id = if id = key then 0 else m.value id := by
  unfold value
  split
  · subst id
    rw [lookup_erase]
    rfl
  · rw [lookup_erase_ne ‹_›]

theorem QuotaMap.value_addNewRecord (m : QuotaMap) (key v id : ℤ) :
    (m.addNewRecord key v).value id = m.value id + if key = id then v else 0 := by
  unfold addNewRecord value
  by_cases hid : key = id
  · subst id
    cases h : m.lookup key <;> simp [lookup_insert]
  · have hne : id ≠ key := Ne.symm hid
    cases h : m.lookup key <;> simp [lookup_insert_ne hne, hid]

section Rows

variable {β : Type} (f : ℤ → Option β) (key id : ℤ) (g : β → β)

theorem isSome_update_map : (update f key ((f key).map g) id).isSome = (f id).isSome := by
  by_cases hid : id = key
  · subst id
    simp
  · simp [hid]

theorem elim_update_map {c : β → ℤ} {v : ℤ} (hg : ∀ b, c (g b) = c b + v) (hrow : (f id).isSome = true) :
    (update f key ((f key).map g) id).elim 0 c = (f id).elim 0 c + if key = id then v else 0 := by
  by_cases hid : id = key
  · subst id
    obtain ⟨b, hb⟩ := Option.isSome_iff_exists.1 hrow
    simp [hb, hg]
  · have hne : ¬ key = id := fun h => hid h.symm
    simp [hid, hne]

end Rows

variable {db db' : CounterRows} {ty : BatchUpdateType} {table : CounterTable} {key id : ℤ} {failed : Bool}
  {v : BatchUpdateType → ℤ} {r : BatchRun} {s : BatchSystem} {i : ℕ}

/-- The statement on the row `key` adds `v` to its columns, unless it fails. -/
structure AddsTo (failed : Bool) (table : CounterTable) (key : ℤ) (v : BatchUpdateType → ℤ)
    (db db' : CounterRows) : Prop where
  hasRow : ∀ id t, db'.hasRow id t = db.hasRow id t
  column : ∀ ty id, db.hasRow id ty.table = true → ¬ (failed = true ∧ key = id ∧ table = ty.table) →
    db'.column ty id = db.column ty id + if ty.table = table ∧ key = id then v ty else 0

theorem AddsTo.of_failed : AddsTo true table key v db db where
  hasRow := fun _ _ => rfl
  column := by
    intro ty id _ hupd
    have hne : ¬ (ty.table = table ∧ key = id) := fun h => hupd ⟨rfl, h.2, h.1.symm⟩
    rw [if_neg hne, add_zero]

theorem AddsTo.of_zero (hv : ∀ ty, ty.table = table → v ty = 0) : AddsTo failed table key v db db where
  hasRow := fun _ _ => rfl
  column := by
    intro ty id _ _
    split_ifs with h
    · rw [hv ty h.1, add_zero]
    · rw [add_zero]

theorem increaseTokenQuota_addsTo :
    AddsTo failed .tokens key v db (db.increaseTokenQuota failed key (v .tokenQuota)) := by
  cases failed with
  | true => exact .of_failed
  | false =>
    refine ⟨?_, ?_⟩
    · intro id t
      cases t with
      | tokens => exact isSome_update_map db.tokens key id _
      | users | channels => rfl
    intro ty id hrow _
    cases ty with
    | tokenQuota =>
      simp only [BatchUpdateType.table, true_and]
      exact elim_update_map db.tokens key id _ (fun _ => rfl) hrow
    | userQuota | usedQuota | channelUsedQuota | requestCount =>
      simp [BatchUpdateType.table, CounterRows.column, CounterRows.increaseTokenQuota]

theorem updateChannelUsedQuota_addsTo :
    AddsTo failed .channels key v db (db.updateChannelUsedQuota failed key (v .channelUsedQuota)) := by
  cases failed with
  | true => exact .of_failed
  | false =>
    refine ⟨?_, ?_⟩
    · intro id t
      cases t with
      | channels => exact isSome_update_map db.channels key id _
      | users | tokens => rfl
    intro ty id hrow _
    cases ty with
    | channelUsedQuota =>
      simp only [BatchUpdateType.table, true_and]
      exact elim_update_map db.channels key id _ (fun _ => rfl) hrow
    | userQuota | usedQuota | tokenQuota | requestCount =>
      simp [BatchUpdateType.table, CounterRows.column, CounterRows.updateChannelUsedQuota]

theorem updateUser_addsTo : AddsTo failed .users key v db
    (db.updateUserQuotaUsedQuotaAndRequestCount failed key (v .userQuota) (v .usedQuota) (v .requestCount)) := by
  unfold CounterRows.updateUserQuotaUsedQuotaAndRequestCount
  split
  · -- the update is skipped when all three values are zero
    rename_i hzero
    apply AddsTo.of_zero
    intro ty hty
    cases ty with
    | userQuota => exact hzero.1
    | usedQuota => exact hzero.2.1
    | requestCount => exact hzero.2.2
    | tokenQuota | channelUsedQuota => cases hty
  cases failed with
  | true => exact .of_failed
  | false =>
    refine ⟨?_, ?_⟩
    · intro id t
      cases t with
      | users => exact isSome_update_map db.users key id _
      | tokens | channels => rfl
    intro ty id hrow _
    cases ty with
    | userQuota | usedQuota | requestCount =>
      simp only [BatchUpdateType.table, true_and]
      exact elim_update_map db.users key id _ (fun _ => rfl) hrow
    | tokenQuota | channelUsedQuota => simp [BatchUpdateType.table, CounterRows.column]

theorem QuotaMap.value_of_lookup {m : QuotaMap} {q : ℤ} (h : m.lookup key = some q) : m.value key = q := by
  unfold value
  rw [h]
  rfl

theorem BatchRun.writeRow_cases (r : BatchRun) (key : ℤ) (failed : Bool) (db : CounterRows) :
    (r.writeRow key failed db = (r, db) ∧ ∀ ty, ty.table = r.table → (r.stores ty).lookup key = none) ∨
      ∃ db', r.writeRow key failed db = (r.drop r.table key, db') ∧
        AddsTo failed r.table key (fun ty => (r.stores ty).value key) db db' := by
  unfold writeRow
  cases ht : r.table with
  | tokens =>
    cases hq : (r.stores .tokenQuota).lookup key with
    | none =>
      refine .inl ⟨rfl, fun ty hty => ?_⟩
      cases ty <;> first | exact hq | cases hty
    | some =>
      obtain rfl := value_of_lookup hq
      exact .inr ⟨_, rfl, increaseTokenQuota_addsTo⟩
  | channels =>
    cases hq : (r.stores .channelUsedQuota).lookup key with
    | none =>
      refine .inl ⟨rfl, fun ty hty => ?_⟩
      cases ty <;> first | exact hq | cases hty
    | some =>
      obtain rfl := value_of_lookup hq
      exact .inr ⟨_, rfl, updateChannelUsedQuota_addsTo⟩
  | users => exact .inr ⟨_, rfl, updateUser_addsTo⟩

def BatchRun.written (r : BatchRun) (ty : BatchUpdateType) (key id : ℤ) : ℤ :=
  if ty.table = r.table ∧ key = id then (r.stores ty).value id else 0

theorem BatchRun.value_drop (r : BatchRun) :
    ((r.drop r.table key).stores ty).value id = (r.stores ty).value id - r.written ty key id := by
  unfold drop written
  by_cases ht : ty.table = r.table
  · simp only [ht, if_true, true_and, value_erase]
    by_cases hid : id = key
    · simp [hid]
    · have hne : ¬ key = id := fun h => hid h.symm
      simp [hid, hne]
  · simp [ht]

theorem BatchRun.written_eq_zero (h : ∀ ty, ty.table = r.table → (r.stores ty).lookup key = none) :
    r.written ty key id = 0 := by
  unfold written
  split
  · obtain ⟨ht, rfl⟩ := ‹_ ∧ _›
    unfold value
    rw [h ty ht]
    rfl
  · rfl

/-- What the statement writes leaves the maps of the run. -/
structure BatchRun.Moved (r : BatchRun) (key : ℤ) (failed : Bool) (db : CounterRows)
    (out : BatchRun × CounterRows) : Prop where
  phase : out.1.phase = r.phase
  hasRow : ∀ id t, out.2.hasRow id t = db.hasRow id t
  value : ∀ ty id, (out.1.stores ty).value id = (r.stores ty).value id - r.written ty key id
  column : ∀ ty id, db.hasRow id ty.table = true → ¬ (failed = true ∧ key = id ∧ r.table = ty.table) →
    out.2.column ty id = db.column ty id + r.written ty key id

theorem BatchRun.writeRow_moved (r : BatchRun) (key : ℤ) (failed : Bool) (db : CounterRows) :
    r.Moved key failed db (r.writeRow key failed db) := by
  rcases r.writeRow_cases key failed db with ⟨hsame, hnone⟩ | ⟨db', hwrite, hadds⟩
  · have hzero : ∀ ty id, r.written ty key id = 0 := fun ty id => written_eq_zero hnone
    rw [hsame]
    refine ⟨rfl, fun _ _ => rfl, ?_, ?_⟩
    · intro ty id
      rw [hzero, sub_zero]
    · intro ty id _ _
      rw [hzero, add_zero]
  · rw [hwrite]
    refine ⟨rfl, hadds.hasRow, fun ty id => r.value_drop, ?_⟩
    intro ty id hrow hupd
    rw [hadds.column ty id hrow hupd]
    unfold written
    split
    · obtain ⟨-, rfl⟩ := ‹_ ∧ _›
      rfl
    · rfl

/-- The maps that a run has not swapped yet are empty. -/
def BatchRun.Clean (r : BatchRun) : Prop :=
  match r.phase with
  | .check _ => ∀ ty, r.stores ty = ∅
  | .swap rest => rest.Nodup ∧ ∀ ty ∈ rest, r.stores ty = ∅
  | .write | .done => True

structure BatchOK (ty : BatchUpdateType) (id : ℤ) (s : BatchSystem) : Prop where
  clean : ∀ r ∈ s.runs, r.Clean
  row : s.db.hasRow id ty.table = true

/-- What was passed to `addNewRecord` for a type and id, wherever it is, on top of what the column was. -/
def BatchSystem.total (s : BatchSystem) (ty : BatchUpdateType) (id : ℤ) : ℤ :=
  s.db.column ty id + s.pending ty id + s.held ty id

theorem BatchSystem.held_set (ty : BatchUpdateType) (id : ℤ)
    (hr : s.runs[i]? = some r) (r' : BatchRun) : ((s.runs.set i r').map fun r => (r.stores ty).value id).sum =
      s.held ty id + ((r'.stores ty).value id - (r.stores ty).value id) :=
  Ledger.sum_map_set (fun r : BatchRun => (r.stores ty).value id) hr r'

theorem BatchRun.Clean.write (h : r.phase = .write) : r.Clean := by
  unfold BatchRun.Clean
  rw [h]
  trivial

theorem BatchOK.clean_set {r' : BatchRun} (h : BatchOK ty id s) (hr' : r'.Clean) : ∀ r ∈ s.runs.set i r', r.Clean := by
  intro r hr
  rcases mem_or_eq_of_mem_set hr with hold | rfl
  · exact h.clean r hold
  · exact hr'

theorem BatchOK.set_phase {phase : BatchPhase}
    (h : BatchOK ty id s) (hr : s.runs[i]? = some r) (hclean : BatchRun.Clean { r with phase }) :
    BatchOK ty id { s with runs := s.runs.set i { r with phase } } ∧
      total { s with runs := s.runs.set i { r with phase } } ty id = s.total ty id := by
  refine ⟨⟨h.clean_set hclean, h.row⟩, ?_⟩
  have hheld := held_set ty id hr { r with phase }
  simp only [sub_self, add_zero] at hheld
  unfold total pending
  rw [held, hheld]

theorem batchUpdateTypes_nodup : batchUpdateTypes.Nodup := by decide

theorem BatchOK.lock (h : BatchOK ty id s) (hr : s.runs[i]? = some r) :
    BatchOK ty id (s.lockSection i r) ∧ (s.lockSection i r).total ty id = s.total ty id := by
  have hclean := h.clean r (mem_of_getElem? hr)
  unfold BatchRun.Clean at hclean
  unfold lockSection
  split
  next hphase => exact h.set_phase hr trivial
  next hphase =>
    rw [hphase] at hclean
    split
    · exact h.set_phase hr hclean
    · exact h.set_phase hr ⟨batchUpdateTypes_nodup, fun ty _ => hclean ty⟩
  next hphase => exact h.set_phase hr trivial
  next ty' rest hphase =>
    rw [hphase] at hclean
    obtain ⟨hnodup, hempty⟩ := hclean
    obtain ⟨hnew, hnodup'⟩ := nodup_cons.1 hnodup
    have hclean' : BatchRun.Clean ⟨.swap rest, update r.stores ty' (s.stores ty')⟩ := by
      refine ⟨hnodup', fun t ht => ?_⟩
      have hne : t ≠ ty' := fun h => hnew (h ▸ ht)
      exact (update_of_ne hne _ _).trans (hempty t (mem_cons_of_mem _ ht))
    refine ⟨⟨h.clean_set hclean', h.row⟩, ?_⟩
    -- the map of the store becomes the map of the run, which was empty
    have hheld := held_set ty id hr ⟨.swap rest, update r.stores ty' (s.stores ty')⟩
    unfold total pending
    rw [held, hheld]
    by_cases hty : ty = ty'
    · subst ty
      have h0 : (r.stores ty').value id = 0 := by rw [hempty ty' mem_cons_self, value_empty]
      simp only [update_self, value_empty, h0]
      omega
    · simp only [update_of_ne hty]
      omega
  · exact ⟨h, rfl⟩
  · exact ⟨h, rfl⟩

theorem BatchOK.write (h : BatchOK ty id s)
    (hr : s.runs[i]? = some r) (hupd : ¬ (failed = true ∧ key = id ∧ r.table = ty.table)) :
    BatchOK ty id (s.writeSection i r key failed) ∧ (s.writeSection i r key failed).total ty id = s.total ty id := by
  unfold writeSection
  split
  next hphase =>
    have hmoved := r.writeRow_moved key failed s.db
    have hclean : (r.writeRow key failed s.db).1.Clean := .write (hmoved.phase.trans hphase)
    have hrow := (hmoved.hasRow id ty.table).trans h.row
    refine ⟨⟨h.clean_set hclean, hrow⟩, ?_⟩
    have hheld := held_set ty id hr (r.writeRow key failed s.db).1
    simp only [total, pending]
    rw [held, hheld, hmoved.value, hmoved.column ty id h.row hupd]
    omega
  next => exact ⟨h, rfl⟩

theorem BatchOK.next {e : BatchEvent} (h : BatchOK ty id s) (hupd : s.updates ty id e) :
    BatchOK ty id (s.next e) ∧ (s.next e).total ty id = s.total ty id + e.passed ty id := by
  cases e with
  | addNewRecord ty' =>
    refine ⟨⟨h.clean, h.row⟩, ?_⟩
    unfold BatchSystem.total pending passed
    simp only [BatchSystem.next, BatchSystem.held]
    by_cases hty : ty = ty'
    · subst ty
      simp only [update_self, value_addNewRecord, true_and]
      omega
    have hne : ¬ ty' = ty := fun h => hty h.symm
    simp only [update_of_ne hty, hne, false_and, if_false]
    omega
  | start =>
    have hclean : ∀ r ∈ s.runs ++ [BatchRun.start], r.Clean := by
      intro r hr
      rcases mem_append.1 hr with hold | hnew
      · exact h.clean r hold
      · obtain rfl := mem_singleton.1 hnew
        exact fun _ => rfl
    refine ⟨⟨hclean, h.row⟩, ?_⟩
    unfold BatchSystem.total pending BatchSystem.held passed
    simp [BatchSystem.next, BatchRun.start]
  | lock i =>
    simp only [BatchSystem.next, passed, add_zero]
    cases hr : s.runs[i]? with
    | none => exact ⟨h, rfl⟩
    | some => exact h.lock hr
  | write i =>
    simp only [BatchSystem.next, passed, add_zero]
    cases hr : s.runs[i]? with
    | none => exact ⟨h, rfl⟩
    | some =>
      refine h.write hr ?_
      intro hfail
      apply hupd
      rw [hr]
      exact ⟨hfail.1, hfail.2.1, congrArg some hfail.2.2⟩

theorem BatchOK.run {s s' : BatchSystem} {evs : List BatchEvent} (h : BatchOK ty id s)
    (hrun : Run (within moves (updates ty id)) s evs s') :
    s'.total ty id = s.total ty id + passedTotal ty id evs := by
  refine hrun.sum_map (fun s => s.total ty id) (passed ty id) ?_ h
  rintro s e _ hok ⟨rfl, hupd⟩
  exact hok.next hupd

theorem BatchOK.init {db : CounterRows} (hrow : db.hasRow id ty.table = true) : BatchOK ty id (init db) :=
  ⟨fun _ hr => absurd hr not_mem_nil, hrow⟩

theorem BatchRun.value_of_finished (h : r.finished = true) : (r.stores ty).value id = 0 := by
  have hty : ty ∈ batchUpdateTypes := by cases ty <;> decide
  have hnil : (r.stores ty).entries.isEmpty = true := all_eq_true.1 h ty hty
  exact value_of_entries_nil (isEmpty_iff.1 hnil) id

theorem BatchSystem.held_of_finished (h : ∀ r ∈ s.runs, r.finished = true) : s.held ty id = 0 := by
  refine sum_eq_zero fun v hv => ?_
  obtain ⟨r, hr, rfl⟩ := mem_map.1 hv
  exact value_of_finished (h r hr)

/-- **No accepted delta is lost, as long as no update of its row fails**: what was passed to `addNewRecord` was added
to the column, is pending in the store, or is about to be written. -/
theorem applied_add_pending_eq_passed (db : CounterRows) (ty : BatchUpdateType) (id : ℤ)
    (hrow : db.hasRow id ty.table = true) (evs : List BatchEvent) (s : BatchSystem)
    (hrun : Run (within BatchSystem.moves (updates ty id)) (BatchSystem.init db) evs s) :
    (s.db.column ty id - db.column ty id) + s.pending ty id + s.held ty id = passedTotal ty id evs ∧
      ((∀ r ∈ s.runs, r.finished = true) →
        (s.db.column ty id - db.column ty id) + s.pending ty id = passedTotal ty id evs) := by
  have htotal := (BatchOK.init hrow).run hrun
  have hstart : (init db).total ty id = db.column ty id := by simp [total, init, pending, held]
  rw [hstart, total] at htotal
  refine ⟨by omega, ?_⟩
  intro hidle
  have hheld : s.held ty id = 0 := held_of_finished hidle
  omega

def sampleCounterRows : CounterRows where
  users := fun id => if id = 1 then some ⟨100, 0, 0⟩ else none
  tokens := fun id => if id = 2 then some ⟨50, 0⟩ else none
  channels := fun id => if id = 3 then some 0 else none

def batchToWrite (run : ℕ) : List BatchEvent := .start :: List.replicate 7 (.lock run)

theorem applied_add_pending_eq_passed_two_runs :
    (let evs := [BatchEvent.addNewRecord .userQuota 1 (-30), .start, .lock 0, .lock 0,
        .addNewRecord .userQuota 1 5, .addNewRecord .requestCount 1 1] ++ List.replicate 6 (.lock 0) ++
        [.write 0 1 false] ++ batchToWrite 1 ++ [.write 1 1 false]
     let s := evs.foldl BatchSystem.next (BatchSystem.init sampleCounterRows)
     (s.db.column .userQuota 1 - 100) + s.pending .userQuota 1 = -25) := by
  refine ((applied_add_pending_eq_passed sampleCounterRows .userQuota 1 rfl _ _
    (Run.of_allowed (by decide +kernel))).2 ?_).trans ?_
  · decide +kernel
  · decide +kernel

/-- The update of user 1 fails. The amount has left the store, and the row never gets it. -/
theorem applied_add_pending_failed_update :
    ¬ (∀ (db : CounterRows) (ty : BatchUpdateType) (id : ℤ) (evs : List BatchEvent), db.hasRow id ty.table = true →
      (∀ r ∈ (evs.foldl BatchSystem.next (BatchSystem.init db)).runs, r.finished = true) →
      ((evs.foldl BatchSystem.next (BatchSystem.init db)).db.column ty id - db.column ty id) +
        (evs.foldl BatchSystem.next (BatchSystem.init db)).pending ty id = passedTotal ty id evs) := by
  intro h
  have hlost := h sampleCounterRows .userQuota 1
    (.addNewRecord .userQuota 1 (-30) :: batchToWrite 0 ++ [.write 0 1 true]) rfl (by decide +kernel)
  revert hlost
  decide +kernel

end NewApi
