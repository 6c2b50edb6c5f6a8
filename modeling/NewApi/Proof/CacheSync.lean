import NewApi.Proof.ChannelCache
import NewApi.Spec.CacheSync

/-!
# Building the cache while the tables are written

`InitChannelCache` goes through as long as every group of the enabled channels it has read is a group of the abilities
it has read (`initChannelCache_isSome`). Between two operations this is so (`RowsCovered`); in the middle of one it
need not be: after the first statement of `FixAbility` there is no ability at all. `Completes` follows one operation
to its end.
-/

namespace NewApi

open Trace Function ChannelDB List Option

variable {decode : String → Option (List String)} {db : ChannelDB} {abilities : List Ability} {group : String}
  {ids : List ℕ} {row : ChannelRow} {program : List Statement} {db' : ChannelDB} {p : ChannelRow → Bool}
  {rows : List ChannelRow} {s : SyncState} {P : ChannelRow → Prop}

theorem flatten_chunkFrom {α : Type*} (size : ℕ) :
    ∀ (xs part : List α), (chunkFrom size part xs).flatten = part ++ xs := by
  intro xs
  induction xs with
  | nil =>
    intro part
    unfold chunkFrom
    cases part <;> simp
  | cons x xs ih =>
    intro part
    unfold chunkFrom
    split_ifs with hfull
    · rw [flatten_cons, ih]
      simp
    · rw [ih]
      simp

theorem flatten_chunk {α : Type*} (size : ℕ) (xs : List α) : (chunk size xs).flatten = xs :=
  flatten_chunkFrom size xs []

def ChannelDB.HasAbility (db : ChannelDB) (group : String) (id : ℕ) : Prop :=
  ∃ a ∈ db.abilities, a.group = group ∧ a.channelId = id

/-- Every group of a row is also in its abilities. -/
def RowsCovered (db : ChannelDB) : Prop := ∀ row ∈ db.rows, ∀ group ∈ row.groups, db.HasAbility group row.id

theorem ChannelDB.HasAbility.add {id : ℕ}
    (h : db.HasAbility group id) : (db.addAbilities abilities).HasAbility group id := by
  obtain ⟨a, ha, hkey⟩ := h
  exact ⟨a, mem_append_left _ ha, hkey⟩

theorem hasAbility_added {a : Ability} (ha : a ∈ abilities) :
    (db.addAbilities abilities).HasAbility a.group a.channelId := by
  by_cases hthere : db.abilities.any a.sameKey = true
  · obtain ⟨b, hb, hkey⟩ := any_eq_true.1 hthere
    simp only [Ability.sameKey, Bool.and_eq_true, decide_eq_true_eq] at hkey
    exact ⟨b, mem_append_left _ hb, hkey.1.1.symm, hkey.2.symm⟩
  · exact ⟨a, mem_append_right _ (mem_filter.2 ⟨ha, by simpa using hthere⟩), rfl, rfl⟩

theorem ChannelDB.HasAbility.delete {id : ℕ} (h : db.HasAbility group id)
    (hid : id ∉ ids) : (db.deleteAbilities ids).HasAbility group id := by
  obtain ⟨a, ha, hgroup, rfl⟩ := h
  exact ⟨a, mem_filter.2 ⟨ha, by simpa using hid⟩, hgroup, rfl⟩

theorem hasAbility_of_toAbilities (h : ∀ a ∈ row.toAbilities, db.HasAbility a.group a.channelId) :
    ∀ group ∈ row.groups, db.HasAbility group row.id := by
  intro group hgroup
  obtain ⟨a, ha, rfl⟩ := List.mem_map.1 (ChannelRow.group_mem_toAbilities hgroup)
  obtain ⟨pair, -, rfl⟩ := ChannelRow.mem_toAbilities.1 ha
  exact h _ ha

theorem covered_updateAbilities (hrow : ∀ r ∈ db.rows, r.id = row.id → r = row)
    (hothers : ∀ r ∈ db.rows, r.id ≠ row.id → ∀ group ∈ r.groups, db.HasAbility group r.id) :
    RowsCovered (db.updateAbilities row) := by
  intro r hr group hgroup
  by_cases hid : r.id = row.id
  · obtain rfl := hrow r hr hid
    exact hasAbility_of_toAbilities (fun a ha => hasAbility_added ha) group hgroup
  · exact ((hothers r hr hid group hgroup).delete (by simpa using hid)).add

/-- The rest of an operation ends with all rows covered. -/
inductive Completes : ChannelDB → List Statement → Prop
  | done {db : ChannelDB} (covered : RowsCovered db) : Completes db []
  | next {db : ChannelDB} {program : List Statement} (busy : program ≠ [])
      (rest : Completes (db.exec true program).1 (db.exec true program).2) : Completes db program

theorem Completes.covered (h : Completes db []) : RowsCovered db := by
  cases h with
  | done covered => exact covered
  | next busy => exact absurd rfl busy

theorem Completes.exec (h : Completes db program) (hbusy : program ≠ []) :
    Completes (db.exec true program).1 (db.exec true program).2 := by
  cases h with
  | done => exact absurd rfl hbusy
  | next _ rest => exact rest

theorem completes_adds {rest : List Statement} :
    ∀ {adds : List Statement} {db : ChannelDB}, (∀ st ∈ adds, st.isAdd = true) →
      (∀ db' : ChannelDB, db'.rows = db.rows → (∀ group id, db.HasAbility group id → db'.HasAbility group id) →
        (∀ id abilities, .addAbilities id abilities ∈ adds → ∀ a ∈ abilities,
          db'.HasAbility a.group a.channelId) → Completes db' rest) →
      Completes db (adds ++ rest) := by
  intro adds
  induction adds with
  | nil =>
    intro db _ h
    exact h db rfl (fun _ _ h => h) fun _ _ hin => nomatch hin
  | cons st adds ih =>
    intro db hadds h
    have hst := hadds st mem_cons_self
    cases st with
    | addAbilities id =>
      refine .next (cons_ne_nil _ _) (ih (fun st hin => hadds st (mem_cons_of_mem _ hin)) ?_)
      intro db' hrows hkeep hadded
      refine h db' hrows (fun group id hhas => hkeep group id hhas.add) fun id' abilities' hin a ha => ?_
      rcases mem_cons.1 hin with heq | hin
      · obtain ⟨rfl, rfl⟩ := Statement.addAbilities.inj heq
        exact hkeep _ _ (hasAbility_added ha)
      · exact hadded id' abilities' hin a ha
    | _ => cases hst

theorem isAdd_of_mem_addStatements {st : Statement} (h : st ∈ addStatements row) : st.isAdd = true := by
  obtain ⟨abilities, -, rfl⟩ := List.mem_map.1 h
  rfl

theorem exists_addStatement {a : Ability} (ha : a ∈ row.toAbilities) :
    ∃ abilities, .addAbilities row.id abilities ∈ addStatements row ∧ a ∈ abilities := by
  rw [← flatten_chunk 50 row.toAbilities, mem_flatten] at ha
  obtain ⟨abilities, hchunk, hin⟩ := ha
  exact ⟨abilities, List.mem_map.2 ⟨abilities, hchunk, rfl⟩, hin⟩

theorem completes_fix :
    ∀ {chunks : List (List ChannelRow)} {db : ChannelDB}, (chunks.flatten.map fun row => row.id).Nodup →
      (∀ row ∈ db.rows, row ∈ chunks.flatten ∨ row.id ∉ chunks.flatten.map (fun row => row.id) ∧
        ∀ group ∈ row.groups, db.HasAbility group row.id) →
      Completes db (chunks.flatMap fixChunk) := by
  intro chunks
  induction chunks with
  | nil =>
    intro db _ h
    refine .done fun row hrow group hgroup => ?_
    rcases h row hrow with hin | ⟨-, hhas⟩
    · cases hin
    · exact hhas group hgroup
  | cons rows chunks ih =>
    intro db hnodup h
    rw [flatten_cons, map_append, nodup_append] at hnodup
    obtain ⟨-, hrest, hdisjoint⟩ := hnodup
    have hadds : ∀ st ∈ rows.flatMap addStatements, st.isAdd = true := by
      intro st hst
      obtain ⟨row, -, hin⟩ := mem_flatMap.1 hst
      exact isAdd_of_mem_addStatements hin
    -- the abilities of the chunk are deleted first
    refine .next (cons_ne_nil _ _) (completes_adds hadds fun db' hrows hkeep hadded => ih hrest ?_)
    intro row hrow
    rw [hrows] at hrow
    rcases h row hrow with hin | ⟨hnot, hhas⟩
    · rw [flatten_cons, mem_append] at hin
      rcases hin with hin | hin
      · refine .inr ⟨fun hlater => ?_, hasAbility_of_toAbilities fun a ha => ?_⟩
        · exact hdisjoint _ (mem_map.2 ⟨row, hin, rfl⟩) _ hlater rfl
        · obtain ⟨abilities, hst, ha⟩ := exists_addStatement ha
          exact hadded _ abilities (mem_flatMap.2 ⟨row, hin, hst⟩) a ha
      · exact .inl hin
    · rw [flatten_cons, map_append, mem_append, not_or] at hnot
      exact .inr ⟨hnot.2, fun group hgroup => hkeep _ _ ((hhas group hgroup).delete hnot.1)⟩

theorem createRow_eq (h : db.createRow row = some db') : db'.rows = row :: db.rows ∧ db'.abilities = db.abilities := by
  unfold createRow at h
  split at h
  · cases h
  · cases h
    exact ⟨rfl, rfl⟩

theorem RowsCovered.insert {db1 db2 : ChannelDB} (h : RowsCovered db) (hcreate : db.createRow row = some db1)
    (hrows : db2.rows = db1.rows) (hkeep : ∀ group id, db1.HasAbility group id → db2.HasAbility group id)
    (hadded : ∀ a ∈ row.toAbilities, db2.HasAbility a.group a.channelId) : RowsCovered db2 := by
  obtain ⟨hnew, habilities⟩ := createRow_eq hcreate
  intro r hr group hgroup
  rw [hrows, hnew] at hr
  rcases mem_cons.1 hr with rfl | hr
  · exact hasAbility_of_toAbilities hadded group hgroup
  · obtain ⟨a, ha, hkey⟩ := h r hr group hgroup
    exact hkeep _ _ ⟨a, by rwa [habilities], hkey⟩

theorem batchInsert_keeps {Q : ChannelDB → Prop} :
    ∀ {rows : List ChannelRow} {db db' : ChannelDB}, (∀ row ∈ rows, ∀ db db', Q db → db.createRow row = some db' →
      Q (db'.addAbilities row.toAbilities)) → Q db → db.batchInsert rows = some db' → Q db' := by
  intro rows
  induction rows with
  | nil =>
    intro db db' _ h hinsert
    cases hinsert
    exact h
  | cons row rows ih =>
    intro db db' hstep h hinsert
    unfold ChannelDB.batchInsert at hinsert
    obtain ⟨db1, hfirst, hrest⟩ := bind_eq_some_iff.1 hinsert
    obtain ⟨db0, hcreate, rfl⟩ := map_eq_some_iff.1 hfirst
    exact ih (fun r hr => hstep r (mem_cons_of_mem _ hr)) (hstep row mem_cons_self db db0 h hcreate) hrest

section

variable (h : RowsCovered db)
include h

theorem RowsCovered.deleteRows : RowsCovered (db.deleteRows p) := fun row hrow => h row (mem_of_mem_filter hrow)

theorem RowsCovered.deleteAbilities (hgone : ∀ row ∈ db.rows, row.id ∉ ids) : RowsCovered (db.deleteAbilities ids) :=
  fun row hrow group hgroup => (h row hrow group hgroup).delete (hgone row hrow)

theorem completes_insert (row : ChannelRow) : Completes db (.createRow row :: addStatements row) := by
  refine .next (cons_ne_nil _ _) ?_
  cases hcreate : db.createRow row with
  | none => simpa [exec, hcreate] using .done h
  | some db1 =>
    have hexec : db.exec true (.createRow row :: addStatements row) = (db1, addStatements row ++ []) := by
      simp [exec, hcreate]
    rw [hexec]
    refine completes_adds (fun st hst => isAdd_of_mem_addStatements hst) fun db2 hrows hkeep hadded => ?_
    refine .done (h.insert hcreate hrows hkeep fun a ha => ?_)
    obtain ⟨abilities, hst, hin⟩ := exists_addStatement ha
    exact hadded _ abilities hst a hin

theorem completes_update (given : ChannelRow) (f : ChannelRow → ChannelRow)
    (hf : ∀ row, (f row).id = row.id) : Completes db [.updateRow given.id f hf, .reload given] := by
  refine .next (cons_ne_nil _ _) (.next (cons_ne_nil _ _) (.next (cons_ne_nil _ _) (.done ?_)))
  set db1 := db.updateRow given.id f hf
  have hothers : ∀ r ∈ db1.rows, r.id ≠ given.id → ∀ group ∈ r.groups, db1.HasAbility group r.id := by
    intro r hr hid group hgroup
    obtain ⟨r0, hr0, rfl⟩ := mem_map.1 hr
    by_cases hr₀id : r0.id = given.id
    · rw [if_pos hr₀id] at hid
      exact absurd ((hf r0).trans hr₀id) hid
    · rw [if_neg hr₀id] at hgroup ⊢
      exact h r0 hr0 group hgroup
  change RowsCovered (db1.updateAbilities ((db1.row given.id).getD given))
  cases hrow : db1.row given.id with
  | none =>
    refine covered_updateAbilities (fun r hr hid => ?_) hothers
    have hno := find?_eq_none.1 hrow r hr
    exact absurd hid (by simpa using hno)
  | some row =>
    have hid : row.id = given.id := by simpa using find?_some hrow
    rw [getD_some]
    refine covered_updateAbilities (fun r hr hr' => ?_) (by rwa [hid])
    have hfind := db1.row_eq hr
    rw [hr', hid] at hfind
    exact some.inj (hfind.symm.trans hrow)

/-- **An operation that is let alone** leaves every channel with its abilities. -/
theorem completes_program (operation : Operation) : Completes db operation.program := by
  cases operation with
  | insert row => exact completes_insert h row
  | update given f hf => exact completes_update h given f hf
  | delete =>
    refine .next (cons_ne_nil _ _) (.next (cons_ne_nil _ _) (.done ?_))
    exact h.deleteRows.deleteAbilities fun row hrow => by simpa using (mem_filter.1 hrow).2
  | deleteByStatus => exact .next (cons_ne_nil _ _) (.done h.deleteRows)
  | batchInsert rows =>
    refine .next (cons_ne_nil _ _) ?_
    cases hinsert : db.batchInsert rows with
    | none => simpa [Operation.program, exec, hinsert] using .done h
    | some db1 =>
      have hcovered : RowsCovered db1 := batchInsert_keeps (fun row _ db db' h hcreate => h.insert hcreate rfl
        (fun _ _ hhas => hhas.add) fun _ ha => hasAbility_added ha) h hinsert
      simpa [Operation.program, exec, hinsert] using .done hcovered
  | batchDelete =>
    refine .next (cons_ne_nil _ _) (.done ?_)
    exact h.deleteRows.deleteAbilities fun row hrow => by simpa using (mem_filter.1 hrow).2
  | fixAbility =>
    refine .next (cons_ne_nil _ _) (.next (cons_ne_nil _ _) ?_)
    change Completes _ ((chunk 50 db.rows).flatMap fixChunk ++ [])
    rw [append_nil]
    refine completes_fix ?_ fun row hrow => .inl ?_
    · rw [flatten_chunk]
      exact db.nodup
    · rw [flatten_chunk]
      exact hrow

end

/-- No two operations or builds of the cache overlap, and the statements and the reads of the abilities succeed. -/
def OneAtATime (s : SyncState) : SyncEvent → Prop
  | .start _ _ => (∀ op, s.running op = []) ∧ ∀ reader, s.reading reader = none
  | .exec _ ok => ok = true
  | .readChannels _ _ => ∀ op, s.running op = []
  | .readAbilities _ ok => ok = true

/-- The invariant when operations and builds follow one another -/
structure SyncOK (s : SyncState) : Prop where
  live : s.panicked = false
  quiet : (∀ op, s.running op = []) → RowsCovered s.db
  alone : ∀ op, s.running op ≠ [] → (∀ other, other ≠ op → s.running other = []) ∧
    (∀ reader, s.reading reader = none) ∧ Completes s.db (s.running op)
  reads : ∀ reader rows, s.reading reader = some rows → ∀ row ∈ rows, row ∈ s.db.rows

theorem SyncOK.no_operation (h : SyncOK s) {reader : ℕ}
    (hreading : s.reading reader = some rows) (op : ℕ) : s.running op = [] := by
  by_contra hbusy
  have hnone := (h.alone op hbusy).2.1 reader
  rw [hreading] at hnone
  cases hnone

theorem SyncOK.of_operation {op : ℕ} (live : s.panicked = false) (hothers : ∀ other, other ≠ op → s.running other = [])
    (hnoreader : ∀ reader, s.reading reader = none) (hcompletes : Completes s.db (s.running op)) : SyncOK s := by
  refine ⟨live, fun hidle => ?_, fun op' hbusy => ?_, fun reader rows hreading => ?_⟩
  · rw [hidle op] at hcompletes
    exact hcompletes.covered
  · obtain rfl : op' = op := by
      by_contra hne
      exact hbusy (hothers op' hne)
    exact ⟨hothers, hnoreader, hcompletes⟩
  · rw [hnoreader reader] at hreading
    cases hreading

theorem reads_readChannels (reader : ℕ) (ok : Bool)
    (hdb : ∀ row ∈ s.db.rows, P row) (h : ∀ reader rows, s.reading reader = some rows → ∀ row ∈ rows, P row) :
    ∀ reader' rows, (s.readChannels reader ok).reading reader' = some rows → ∀ row ∈ rows, P row := by
  refine (forall_update_iff s.reading fun _ read => ∀ rows, read = some rows → ∀ row ∈ rows, P row).2
    ⟨fun rows hrows row hrow => ?_, fun reader' _ => h reader'⟩
  cases hrows
  cases ok with
  | true => exact hdb row hrow
  | false => cases hrow

theorem reads_done (reader : ℕ) (h : ∀ reader rows, s.reading reader = some rows → ∀ row ∈ rows, P row) :
    ∀ reader' rows, update s.reading reader none reader' = some rows → ∀ row ∈ rows, P row :=
  (forall_update_iff s.reading fun _ read => ∀ rows, read = some rows → ∀ row ∈ rows, P row).2
    ⟨nofun, fun reader' _ => h reader'⟩

theorem readAbilities_ok {reader : ℕ}
    (hgroups : ∀ row ∈ rows, ∀ group ∈ row.groups, ∃ id, s.db.HasAbility group id) :
    ∃ cache, s.readAbilities decode reader rows true =
      { s with reading := update s.reading reader none, cache := cache } := by
  have hsome : (initChannelCache decode s.cache rows s.db.abilities).isSome = true := by
    rw [initChannelCache_isSome]
    intro row hrow _ group hgroup
    obtain ⟨id, a, ha, hkey, -⟩ := hgroups row hrow group hgroup
    exact mem_map.2 ⟨a, ha, hkey⟩
  obtain ⟨cache, hcache⟩ := isSome_iff_exists.1 hsome
  refine ⟨cache, ?_⟩
  unfold SyncState.readAbilities
  simp [hcache]

theorem syncOK_step {s s' : SyncState} {e : SyncEvent} (h : SyncOK s)
    (hst : within (SyncStep decode) OneAtATime s e s') : SyncOK s' := by
  obtain ⟨hst, hcond⟩ := hst
  cases hst with
  | @start op operation live free lock =>
    obtain ⟨hidle, hnoreader⟩ := hcond
    refine .of_operation live (fun other hne => (update_of_ne hne _ _).trans (hidle other)) hnoreader ?_
    rw [show (s.start op operation).running op = operation.program from update_self _ _ _]
    exact completes_program (h.quiet hidle) operation
  | @exec op ok live busy =>
    obtain rfl := hcond
    obtain ⟨hothers, hnoreader, hcompletes⟩ := h.alone op busy
    refine .of_operation live (fun other hne => (update_of_ne hne _ _).trans (hothers other hne)) hnoreader ?_
    rw [show (s.exec op true).running op = (s.db.exec true (s.running op)).2 from update_self _ _ _]
    exact hcompletes.exec busy
  | @readChannels reader ok live free =>
    exact ⟨live, h.quiet, fun op hbusy => absurd (hcond op) hbusy,
      reads_readChannels reader ok (fun _ hrow => hrow) h.reads⟩
  | @readAbilities reader ok rows live busy =>
    obtain rfl : ok = true := hcond
    have hidle := h.no_operation busy
    obtain ⟨cache, hafter⟩ := readAbilities_ok fun row hrow group hgroup =>
      ⟨row.id, h.quiet hidle row (h.reads reader rows busy row hrow) group hgroup⟩
    rw [hafter]
    exact ⟨live, h.quiet, fun op hbusy => absurd (hidle op) hbusy, reads_done reader h.reads⟩

def Kept (keep : List ℕ) (db : ChannelDB) (group : String) : Prop := ∃ id ∈ keep, db.HasAbility group id

/-- A statement that takes no ability from the channels of `keep`, and puts no channel into another group
than these. -/
def Statement.Spares (keep : List ℕ) (groups : String → Prop) : Statement → Prop
  | .createRow row => ∀ group ∈ row.groups, groups group
  | .addAbilities _ _ => True
  | .updateRow _ f _ =>
    ∀ row : ChannelRow, (∀ group ∈ row.groups, groups group) → ∀ group ∈ (f row).groups, groups group
  | .reload given => given.id ∉ keep
  | .updateAbilities row => row.id ∉ keep
  | .deleteRow _ => True
  | .deleteByStatus _ => True
  | .deleteAbilities ids => ∀ id ∈ keep, id ∉ ids
  | .truncateAbilities => False
  | .findChannels => False
  | .batchInsert rows => ∀ row ∈ rows, ∀ group ∈ row.groups, groups group
  | .batchDelete ids => ∀ id ∈ keep, id ∉ ids

/-- Every operation spares the channels of `keep`, and the abilities can be read. -/
def Anchored (keep : List ℕ) (groups : String → Prop) (_ : SyncState) : SyncEvent → Prop
  | .start _ operation => ∀ st ∈ operation.program, st.Spares keep groups
  | .exec _ _ => True
  | .readChannels _ _ => True
  | .readAbilities _ ok => ok = true

structure AnchoredDB (keep : List ℕ) (groups : String → Prop) (db : ChannelDB) : Prop where
  kept : ∀ group, groups group → Kept keep db group
  rows : ∀ row ∈ db.rows, ∀ group ∈ row.groups, groups group

section Anchored
variable {keep : List ℕ} {groups : String → Prop}

theorem Kept.mono (h : Kept keep db group)
    (habilities : ∀ id ∈ keep, db.HasAbility group id → db'.HasAbility group id) : Kept keep db' group := by
  obtain ⟨id, hid, hhas⟩ := h
  exact ⟨id, hid, habilities id hid hhas⟩

namespace AnchoredDB

variable (h : AnchoredDB keep groups db)
include h

theorem addAbilities : AnchoredDB keep groups (db.addAbilities abilities) :=
  ⟨fun group hg => (h.kept group hg).mono fun _ _ hhas => hhas.add, h.rows⟩

theorem deleteAbilities (hids : ∀ id ∈ keep, id ∉ ids) : AnchoredDB keep groups (db.deleteAbilities ids) :=
  ⟨fun group hg => (h.kept group hg).mono fun id hid hhas => hhas.delete (hids id hid), h.rows⟩

theorem deleteRows : AnchoredDB keep groups (db.deleteRows p) :=
  ⟨h.kept, fun row hrow => h.rows row (mem_of_mem_filter hrow)⟩

theorem createRow (hcreate : db.createRow row = some db') (hrow : ∀ group ∈ row.groups, groups group) :
    AnchoredDB keep groups db' := by
  obtain ⟨hrows, habilities⟩ := createRow_eq hcreate
  refine ⟨fun group hg => (h.kept group hg).mono fun _ _ hhas => ?_, fun r hr => ?_⟩
  · unfold ChannelDB.HasAbility
    rwa [habilities]
  rw [hrows] at hr
  rcases mem_cons.1 hr with rfl | hr
  · exact hrow
  · exact h.rows r hr

end AnchoredDB

theorem exec_failed (db : ChannelDB) (program : List Statement) : (db.exec false program).1 = db := by
  cases program with
  | nil => rfl
  | cons st => cases st <;> rfl

/-- After a statement that failed some of the rest is left out, and the caller's channel is taken for the row that
could not be read. -/
theorem spares_failed (hspares : ∀ st ∈ program, st.Spares keep groups) :
    ∀ st ∈ (db.exec false program).2, st.Spares keep groups := by
  cases program with
  | nil => exact hspares
  | cons st rest =>
    have hrest : ∀ st ∈ rest, st.Spares keep groups := fun st hin => hspares st (mem_cons_of_mem _ hin)
    have hdrop : ∀ p, ∀ st ∈ rest.dropWhile p, st.Spares keep groups :=
      fun p st hin => hrest st ((dropWhile_sublist p).subset hin)
    have hnil : ∀ st ∈ ([] : List Statement), st.Spares keep groups := forall_mem_nil _
    cases st with
    | addAbilities | deleteAbilities => exact hdrop _
    | updateAbilities => exact hrest
    | reload given =>
      refine forall_mem_cons.2 ⟨?_, hrest⟩
      exact hspares (.reload given) mem_cons_self
    | createRow | updateRow | deleteRow | deleteByStatus | truncateAbilities | findChannels | batchInsert
      | batchDelete => exact hnil

theorem AnchoredDB.exec (h : AnchoredDB keep groups db) (ok : Bool) (hspares : ∀ st ∈ program, st.Spares keep groups) :
    AnchoredDB keep groups (db.exec ok program).1 ∧ ∀ st ∈ (db.exec ok program).2, st.Spares keep groups := by
  cases ok with
  | false =>
    rw [exec_failed]
    exact ⟨h, spares_failed hspares⟩
  | true =>
    cases program with
    | nil => exact ⟨h, hspares⟩
    | cons st rest =>
      have hst := hspares st mem_cons_self
      have hrest : ∀ st ∈ rest, st.Spares keep groups := fun st hin => hspares st (mem_cons_of_mem _ hin)
      cases st with
      | createRow row =>
        cases hcreate : db.createRow row with
        | none => simpa [exec, hcreate] using h
        | some => simpa [exec, hcreate] using ⟨h.createRow hcreate hst, hrest⟩
      | addAbilities => exact ⟨h.addAbilities, hrest⟩
      | updateRow id =>
        refine ⟨⟨h.kept, fun row hrow => ?_⟩, hrest⟩
        obtain ⟨r, hr, rfl⟩ := mem_map.1 hrow
        split_ifs with hid
        · exact hst r (h.rows r hr)
        · exact h.rows r hr
      | reload given =>
        -- the row that was read has the id of the channel
        refine ⟨h, forall_mem_cons.2 ⟨?_, hrest⟩⟩
        change ((db.row given.id).getD given).id ∉ keep
        cases hrow : db.row given.id with
        | none => exact hst
        | some row =>
          have hid : row.id = given.id := by simpa using find?_some hrow
          rw [getD_some, hid]
          exact hst
      | updateAbilities =>
        refine ⟨(h.deleteAbilities fun id hid => ?_).addAbilities, hrest⟩
        rw [mem_singleton]
        rintro rfl
        exact hst hid
      | deleteRow | deleteByStatus => exact ⟨h.deleteRows, hrest⟩
      | deleteAbilities => exact ⟨h.deleteAbilities hst, hrest⟩
      | truncateAbilities | findChannels => exact hst.elim
      | batchInsert rows =>
        cases hinsert : db.batchInsert rows with
        | none => simpa [exec, hinsert] using h
        | some =>
          have hdb := batchInsert_keeps
            (fun row hrow db db' h hcreate => (h.createRow hcreate (hst row hrow)).addAbilities) h hinsert
          simpa [exec, hinsert] using ⟨hdb, hrest⟩
      | batchDelete => exact ⟨h.deleteRows.deleteAbilities hst, hrest⟩

/-- The invariant when channels that keep their abilities have every group -/
structure AnchoredOK (keep : List ℕ) (groups : String → Prop) (s : SyncState) : Prop where
  live : s.panicked = false
  db : AnchoredDB keep groups s.db
  spares : ∀ op, ∀ st ∈ s.running op, st.Spares keep groups
  reads : ∀ reader rows, s.reading reader = some rows → ∀ row ∈ rows, ∀ group ∈ row.groups, groups group

theorem spares_update {running : ℕ → List Statement} {op : ℕ}
    (h : ∀ op, ∀ st ∈ running op, st.Spares keep groups) (hprogram : ∀ st ∈ program, st.Spares keep groups) :
    ∀ op', ∀ st ∈ update running op program op', st.Spares keep groups :=
  (forall_update_iff running fun _ program => ∀ st ∈ program, Statement.Spares keep groups st).2
    ⟨hprogram, fun op' _ => h op'⟩

theorem anchoredOK_step {s s' : SyncState} {e : SyncEvent} (h : AnchoredOK keep groups s)
    (hst : within (SyncStep decode) (Anchored keep groups) s e s') : AnchoredOK keep groups s' := by
  obtain ⟨hst, hcond⟩ := hst
  cases hst with
  | @start op operation live free lock => exact ⟨live, h.db, spares_update h.spares hcond, h.reads⟩
  | @exec op ok live busy =>
    obtain ⟨hdb, hrest⟩ := h.db.exec ok (h.spares op)
    exact ⟨live, hdb, spares_update h.spares hrest, h.reads⟩
  | @readChannels reader ok live free => exact ⟨live, h.db, h.spares, reads_readChannels reader ok h.db.rows h.reads⟩
  | @readAbilities reader ok rows live busy =>
    obtain rfl := hcond
    obtain ⟨cache, hafter⟩ := readAbilities_ok fun row hrow group hgroup =>
      (h.db.kept group (h.reads reader rows busy row hrow group hgroup)).imp fun _ hid => hid.2
    rw [hafter]
    exact ⟨live, h.db, h.spares, reads_done reader h.reads⟩

end Anchored

/-- **The cache is built without a panic**, if operations and builds follow one another and succeed, or if every group
that a channel has or is given is also one of a channel that keeps its abilities. -/
theorem sync_never_panics (decode : String → Option (List String)) (db : ChannelDB) (cache : ChannelCache)
    {es : List SyncEvent} {s : SyncState}
    (h : (RowsCovered db ∧ Run (within (SyncStep decode) OneAtATime) (.idle db cache) es s) ∨
      ∃ keep, (∀ row ∈ db.rows, ∀ group ∈ row.groups, Kept keep db group) ∧
        Run (within (SyncStep decode) (Anchored keep (Kept keep db))) (.idle db cache) es s) :
    s.panicked = false := by
  rcases h with ⟨hcovered, hrun⟩ | ⟨keep, hrows, hrun⟩
  · have hstart : SyncOK (.idle db cache) :=
      ⟨rfl, fun _ => hcovered, fun _ hbusy => absurd rfl hbusy, fun _ _ hreading => nomatch hreading⟩
    exact (hrun.inv (fun _ _ _ hok hst => syncOK_step hok hst) hstart).live
  have hstart : AnchoredOK keep (Kept keep db) (.idle db cache) :=
    ⟨rfl, ⟨fun _ hkept => hkept, hrows⟩, (fun _ _ hin => nomatch hin), fun _ _ hreading => nomatch hreading⟩
  exact (hrun.inv (fun _ _ _ hok hst => anchoredOK_step hok hst) hstart).live

theorem covered_oneRow (models : String) : RowsCovered (oneRow models) := by
  intro row hrow group hgroup
  obtain rfl := mem_singleton.1 hrow
  refine hasAbility_of_toAbilities (fun a ha => ?_) group hgroup
  exact ⟨a, ha, rfl, rfl⟩

theorem sync_never_panics_insert :
    ∃ s, Run (SyncStep noArrays) (.idle (oneRow "gpt") emptyCache)
        [.start 0 (.insert (defaultRow 3 "o1")), .exec 0 true, .readChannels 1 true, .readAbilities 1 true] s ∧
      s.running 0 ≠ [] ∧ s.panicked = false := by
  have hkept : ∀ id, ∀ group ∈ (defaultRow id "gpt").groups, Kept [2] (oneRow "gpt") group :=
    fun _ group hgroup => ⟨2, mem_cons_self, covered_oneRow "gpt" _ mem_cons_self group hgroup⟩
  have hspares : ∀ st ∈ (Operation.insert (defaultRow 3 "o1")).program, st.Spares [2] (Kept [2] (oneRow "gpt")) := by
    intro st hst
    rcases mem_cons.1 hst with rfl | hst
    · exact hkept 3
    · obtain ⟨abilities, -, rfl⟩ := mem_map.1 hst
      trivial
  obtain ⟨s, hrun, hbusy⟩ : ∃ s, Run (within (SyncStep noArrays) (Anchored [2] (Kept [2] (oneRow "gpt"))))
      (.idle (oneRow "gpt") emptyCache)
      [.start 0 (.insert (defaultRow 3 "o1")), .exec 0 true, .readChannels 1 true, .readAbilities 1 true] s ∧
      s.running 0 ≠ [] :=
    ⟨_, .cons ⟨.start rfl rfl fun _ => rfl, hspares⟩ <| .cons ⟨.exec rfl (cons_ne_nil _ _), trivial⟩ <|
      .cons ⟨.readChannels rfl rfl, trivial⟩ <| .cons ⟨.readAbilities rfl rfl, rfl⟩ (.nil _), cons_ne_nil _ _⟩
  have hrows : ∀ row ∈ (oneRow "gpt").rows, ∀ group ∈ row.groups, Kept [2] (oneRow "gpt") group := by
    intro row hrow
    obtain rfl := mem_singleton.1 hrow
    exact hkept 2
  exact ⟨s, hrun.of_within, hbusy, sync_never_panics noArrays (oneRow "gpt") emptyCache (.inr ⟨[2], hrows, hrun⟩)⟩

/-- The abilities are truncated and not yet added again when the cache is built. -/
theorem sync_panics :
    ∃ s, Run (SyncStep noArrays) (.idle (oneRow "gpt") emptyCache)
        [.start 0 .fixAbility, .exec 0 true, .readChannels 1 true, .readAbilities 1 true] s ∧
      s.panicked = true := by
  refine ⟨_, .cons (.start rfl rfl fun _ => rfl) <| .cons (.exec rfl (cons_ne_nil _ _)) <|
    .cons (.readChannels rfl rfl) <| .cons (.readAbilities rfl rfl) (.nil _), ?_⟩
  decide +kernel

end NewApi
