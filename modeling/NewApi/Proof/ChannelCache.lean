import NewApi.Proof.RelayLoop
import NewApi.Spec.ChannelCache

/-!
# What the cache lists

`initChannelCache` adds one entry for every pair of a group and a model of a row, and `cacheUpdateChannelStatus` takes
out one entry of each list per call. So a channel that names nothing twice is gone after the first call that disables
it, and one that does is still chosen. `Adds` says what building the index can do, and when it panics.
-/

namespace NewApi

open ChannelIndex ChannelRow Function List Option

def ChannelIndex.list (index : ChannelIndex) (group model : String) : List ℕ :=
  (index group).elim [] fun inner => inner model

structure Adds (f : ChannelIndex → Option ChannelIndex) (needs : List String)
    (added : String → String → List ℕ) : Prop where
  adds : ∀ index, (∀ group ∈ needs, (index group).isSome = true) → ∃ index', f index = some index' ∧
    (∀ group, (index' group).isSome = (index group).isSome) ∧
    ∀ group model, index'.list group model = index.list group model ++ added group model
  panics : ∀ index, (∃ group ∈ needs, (index group).isSome = false) → f index = none

theorem Adds.nil : Adds some [] fun _ _ => [] where
  adds index _ := ⟨index, rfl, fun _ => rfl, fun _ _ => (append_nil _).symm⟩
  panics index h := by
    obtain ⟨group, hgroup, -⟩ := h
    cases hgroup

theorem Adds.bind {f g : ChannelIndex → Option ChannelIndex} {needs1 needs2 : List String}
    {added1 added2 : String → String → List ℕ} (hf : Adds f needs1 added1) (hg : Adds g needs2 added2) :
    Adds (fun index => (f index).bind g) (needs1 ++ needs2)
      fun group model => added1 group model ++ added2 group model where
  adds index hneeds := by
    obtain ⟨index1, h1, hdom1, hlist1⟩ := hf.adds index fun group hgroup => hneeds group (mem_append_left _ hgroup)
    obtain ⟨index2, h2, hdom2, hlist2⟩ := hg.adds index1 fun group hgroup =>
      (hdom1 group).trans (hneeds group (mem_append_right _ hgroup))
    refine ⟨index2, ?_, fun group => (hdom2 group).trans (hdom1 group), fun group model => ?_⟩
    · rw [h1, bind_some, h2]
    · rw [hlist2, hlist1, append_assoc]
  panics index h := by
    obtain ⟨group, hgroup, hnone⟩ := h
    by_cases hfirst : ∃ group ∈ needs1, (index group).isSome = false
    · rw [hf.panics index hfirst, bind_none]
    -- the first part goes through, so it is the second that misses a group
    have hneeds : ∀ group ∈ needs1, (index group).isSome = true := by
      intro g hg
      by_contra hno
      exact hfirst ⟨g, hg, by simpa using hno⟩
    obtain ⟨index1, h1, hdom1, -⟩ := hf.adds index hneeds
    rw [h1, bind_some]
    apply hg.panics
    rcases mem_append.1 hgroup with hin | hin
    · exact absurd ⟨group, hin, hnone⟩ hfirst
    · exact ⟨group, hin, (hdom1 group).trans hnone⟩

theorem Adds.foldlM {α : Type*} {f : ChannelIndex → α → Option ChannelIndex} {needs : α → List String}
    {added : α → String → String → List ℕ} (h : ∀ x, Adds (fun index => f index x) (needs x) (added x)) :
    ∀ xs : List α, Adds (fun index => xs.foldlM f index) (xs.flatMap needs)
      fun group model => xs.flatMap fun x => added x group model
  | [] => Adds.nil
  | x :: xs => (h x).bind (Adds.foldlM h xs)

theorem adds_append (group model : String) (id : ℕ) : Adds (fun index => index.append group model id) [group]
      fun g m => if g = group ∧ m = model then [id] else [] where
  adds index hneeds := by
    obtain ⟨inner, hinner⟩ := isSome_iff_exists.1 (hneeds group mem_cons_self)
    refine ⟨_, by rw [append, hinner, map_some], fun g => ?_, fun g m => ?_⟩
    · by_cases hg : g = group
      · rw [hg, update_self, hinner]
        rfl
      · rw [update_of_ne hg]
    unfold list
    by_cases hg : g = group
    · subst hg
      rw [update_self, hinner]
      by_cases hm : m = model
      · subst hm
        simp
      · simp [hm]
    · rw [update_of_ne hg, if_neg (fun h => hg h.1), append_nil]
  panics index h := by
    obtain ⟨g, hg, hnone⟩ := h
    obtain rfl := mem_singleton.1 hg
    have hmissing : index g = none := by simpa using hnone
    rw [append, hmissing, map_none]

def ChannelRow.entries (row : ChannelRow) (group model : String) : List ℕ :=
  if row.status = channelStatusEnabled then
    row.groups.flatMap fun g => row.modelNames.flatMap fun m => if group = g ∧ model = m then [row.id] else []
  else []

def ChannelRow.needs (row : ChannelRow) : List String :=
  if row.status = channelStatusEnabled then row.groups.flatMap fun group => row.modelNames.flatMap fun _ => [group]
  else []

theorem adds_addRow (row : ChannelRow) : Adds (fun index => index.addRow row) row.needs row.entries := by
  by_cases henabled : row.status = channelStatusEnabled
  · have hrow : (fun index : ChannelIndex => index.addRow row) =
        fun index => row.groups.foldlM (addModels row.id row.modelNames) index :=
      funext fun index => if_pos henabled
    have hentries : row.entries = fun group model => row.groups.flatMap fun g => row.modelNames.flatMap fun m =>
        if group = g ∧ model = m then [row.id] else [] := by
      funext group model
      exact if_pos henabled
    have hneeds : row.needs = row.groups.flatMap fun group => row.modelNames.flatMap fun _ => [group] := if_pos henabled
    rw [hrow, hentries, hneeds]
    exact Adds.foldlM (fun group => Adds.foldlM (fun model => adds_append group model row.id) row.modelNames) row.groups
  · have hrow : (fun index : ChannelIndex => index.addRow row) = some := funext fun index => if_neg henabled
    have hentries : row.entries = fun _ _ => [] := by
      funext group model
      exact if_neg henabled
    have hneeds : row.needs = [] := if_neg henabled
    rw [hrow, hentries, hneeds]
    exact Adds.nil

variable {row : ChannelRow} {pair : String × String}

theorem ChannelRow.mem_needs {group : String} :
    group ∈ row.needs ↔ row.status = channelStatusEnabled ∧ group ∈ row.groups := by
  unfold needs
  by_cases henabled : row.status = channelStatusEnabled
  · obtain ⟨model, hmodel⟩ := exists_mem_of_ne_nil _ (splitText_ne_nil ',' row.models)
    rw [if_pos henabled]
    simp only [henabled, true_and, List.mem_flatMap, mem_singleton]
    constructor
    · rintro ⟨g, hg, m, -, rfl⟩
      exact hg
    · intro hg
      exact ⟨group, hg, model, hmodel, rfl⟩
  · simp [henabled]

theorem ChannelRow.mem_entries {group model : String} {id : ℕ} : id ∈ row.entries group model ↔
      row.id = id ∧ row.status = channelStatusEnabled ∧ group ∈ row.groups ∧ model ∈ row.modelNames := by
  unfold ChannelRow.entries
  by_cases henabled : row.status = channelStatusEnabled
  · rw [if_pos henabled]
    simp only [henabled, true_and, List.mem_flatMap]
    constructor
    · rintro ⟨g, hg, m, hm, hin⟩
      split_ifs at hin with heq
      · obtain ⟨rfl, rfl⟩ := heq
        exact ⟨(mem_singleton.1 hin).symm, hg, hm⟩
      · cases hin
    · rintro ⟨rfl, hg, hm⟩
      exact ⟨group, hg, model, hm, by simp⟩
  · simp [henabled]

theorem sum_occurrences (a : String) (n : ℕ) (xs : List String) :
    (xs.map fun x => if a = x then n else 0).sum = xs.count a * n := by
  induction xs with
  | nil => simp
  | cons x xs ih =>
    rw [map_cons, sum_cons, ih]
    by_cases hx : a = x
    · subst hx
      rw [if_pos rfl, count_cons_self, Nat.succ_mul, Nat.add_comm]
    · rw [if_neg hx, count_cons_of_ne (Ne.symm hx), Nat.zero_add]

theorem ChannelRow.count_entries (row : ChannelRow) (group model : String) : (row.entries group model).count row.id =
      if row.status = channelStatusEnabled then row.groups.count group * row.modelNames.count model else 0 := by
  unfold ChannelRow.entries
  split_ifs with henabled
  · rw [count_flatMap, ← sum_occurrences]
    congr 1
    refine map_congr_left fun g _ => ?_
    rw [comp_apply, count_flatMap]
    by_cases hg : group = g
    · subst hg
      rw [if_pos rfl, ← mul_one (List.count _ _), ← sum_occurrences]
      congr 1
      refine map_congr_left fun m _ => ?_
      by_cases hm : model = m <;> simp [hm]
    · simp [hg, comp_def]
  · rw [count_nil]

section
variable {decode : String → Option (List String)} {old cache : ChannelCache} {rows : List ChannelRow}
  {abilities : List Ability}

theorem adds_rows (rows : List ChannelRow) : Adds (fun index => rows.foldlM addRow index) (rows.flatMap needs)
      fun group model => rows.flatMap fun row => row.entries group model :=
  Adds.foldlM adds_addRow rows

theorem ofAbilities_isSome (group : String) :
    (ofAbilities abilities group).isSome = true ↔ group ∈ abilities.map Ability.group := by
  unfold ofAbilities
  split <;> simp_all

/-- **When the cache can be built**: the abilities have every group of the enabled channels. -/
theorem initChannelCache_isSome : (initChannelCache decode old rows abilities).isSome = true ↔
      ∀ row ∈ rows, row.status = channelStatusEnabled → ∀ group ∈ row.groups, group ∈ abilities.map Ability.group := by
  rw [initChannelCache, isSome_map]
  have hneeds : (∀ group ∈ rows.flatMap needs, (ofAbilities abilities group).isSome = true) ↔
      ∀ row ∈ rows, row.status = channelStatusEnabled → ∀ group ∈ row.groups, group ∈ abilities.map Ability.group := by
    simp only [List.mem_flatMap, mem_needs, ofAbilities_isSome]
    exact ⟨fun h row hrow hen group hg => h group ⟨row, hrow, hen, hg⟩,
      fun h group ⟨row, hrow, hen, hg⟩ => h row hrow hen group hg⟩
  rw [← hneeds]
  constructor
  · intro hsome group hgroup
    by_contra hnone
    rw [(adds_rows rows).panics _ ⟨group, hgroup, by simpa using hnone⟩] at hsome
    cases hsome
  intro hall
  obtain ⟨index, hindex, -⟩ := (adds_rows rows).adds _ hall
  rw [hindex]
  rfl

section

variable (h : initChannelCache decode old rows abilities = some cache)
include h

theorem initChannelCache_perm (group model : String) :
    (cache.group2model2channels group model).Perm (rows.flatMap fun row => row.entries group model) := by
  obtain ⟨index, hindex, rfl⟩ := map_eq_some_iff.1 h
  refine (perm_insertionSort _ _).trans ?_
  -- the index starts from empty lists
  have hneeds : ∀ g ∈ rows.flatMap needs, (ofAbilities abilities g).isSome = true := by
    intro g hg
    by_contra hnone
    rw [(adds_rows rows).panics _ ⟨g, hg, by simpa using hnone⟩] at hindex
    cases hindex
  obtain ⟨index', hindex', -, hlist⟩ := (adds_rows rows).adds _ hneeds
  obtain rfl := some.inj (hindex'.symm.trans hindex)
  have hempty : (ofAbilities abilities).list group model = [] := by
    unfold list ofAbilities
    split <;> rfl
  have hentries := hlist group model
  rw [hempty, nil_append] at hentries
  rw [← hentries]
  rfl

theorem mem_initChannelCache  {group model : String} {id : ℕ} :
    id ∈ cache.group2model2channels group model ↔ ∃ row ∈ rows, row.id = id ∧
      row.status = channelStatusEnabled ∧ group ∈ row.groups ∧ model ∈ row.modelNames := by
  rw [(initChannelCache_perm h group model).mem_iff, List.mem_flatMap]
  simp [ChannelRow.mem_entries]

end

theorem count_initChannelCache (hnodup : (rows.map fun row => row.id).Nodup)
    (h : initChannelCache decode old rows abilities = some cache) (hrow : row ∈ rows) (group model : String) :
    (cache.group2model2channels group model).count row.id =
      if row.status = channelStatusEnabled then row.groups.count group * row.modelNames.count model else 0 := by
  rw [(initChannelCache_perm h group model).count_eq, ← row.count_entries]
  clear h
  induction rows with
  | nil => cases hrow
  | cons first rows ih =>
    rw [map_cons, nodup_cons] at hnodup
    -- an entry of one row is not one of another row
    have hother : ∀ r : ChannelRow, r.id ≠ row.id → (r.entries group model).count row.id = 0 := by
      intro r hr
      rw [count_eq_zero, ChannelRow.mem_entries]
      exact fun hin => hr hin.1
    rw [flatMap_cons, count_append]
    rcases mem_cons.1 hrow with rfl | hrow
    · have hrest : (rows.flatMap fun r => r.entries group model).count row.id = 0 := by
        rw [count_eq_zero, List.mem_flatMap]
        rintro ⟨r, hr, hin⟩
        exact hnodup.1 (List.mem_map.2 ⟨r, hr, (ChannelRow.mem_entries.1 hin).1⟩)
      rw [hrest, Nat.add_zero]
    have hne : first.id ≠ row.id := fun heq => hnodup.1 (List.mem_map.2 ⟨row, hrow, heq.symm⟩)
    rw [hother first hne, Nat.zero_add]
    exact ih hnodup.2 hrow

end

theorem find_row {rows : List ChannelRow} (hnodup : (rows.map fun row => row.id).Nodup)
    (hrow : row ∈ rows) : (rows.find? fun r => r.id = row.id) = some row := by
  induction rows with
  | nil => cases hrow
  | cons first rows ih =>
    rw [map_cons, nodup_cons] at hnodup
    rcases mem_cons.1 hrow with rfl | hrow
    · simp
    have hne : first.id ≠ row.id := fun heq => hnodup.1 (List.mem_map.2 ⟨row, hrow, heq.symm⟩)
    rw [find?_cons_of_neg (by simpa using hne)]
    exact ih hnodup.2 hrow

theorem ChannelDB.row_eq {db : ChannelDB} (hrow : row ∈ db.rows) : db.row row.id = some row := find_row db.nodup hrow

theorem eq_of_id_eq {db : ChannelDB} {row other : ChannelRow} (hrow : row ∈ db.rows) (hother : other ∈ db.rows)
    (hid : row.id = other.id) : row = other := by
  have h := db.row_eq hrow
  rw [hid, db.row_eq hother] at h
  exact (some.inj h).symm

theorem mem_of_mem_dedupPairs :
    ∀ {pairs : List (String × String)} {seen : List String}, pair ∈ dedupPairs seen pairs → pair ∈ pairs
  | [], _, h => by cases h
  | first :: rest, seen, h => by
    unfold dedupPairs at h
    split at h
    · exact mem_cons_of_mem _ (mem_of_mem_dedupPairs h)
    rcases mem_cons.1 h with rfl | h
    · exact mem_cons_self
    · exact mem_cons_of_mem _ (mem_of_mem_dedupPairs h)

theorem exists_dedupPairs :
    ∀ {pairs : List (String × String)} {seen : List String}, pair ∈ pairs → abilityKey pair ∉ seen →
      ∃ kept ∈ dedupPairs seen pairs, abilityKey kept = abilityKey pair
  | [], _, h, _ => by cases h
  | first :: rest, seen, h, hnew => by
    unfold dedupPairs
    split_ifs with hseen
    · rcases mem_cons.1 h with rfl | h
      · exact absurd (by simpa using hseen) hnew
      · exact exists_dedupPairs h hnew
    by_cases hkey : abilityKey pair = abilityKey first
    · exact ⟨first, mem_cons_self, hkey.symm⟩
    have hrest : pair ∈ rest := by
      rcases mem_cons.1 h with rfl | h
      · exact absurd rfl hkey
      · exact h
    have hnew' : abilityKey pair ∉ abilityKey first :: seen := by simp [hkey, hnew]
    obtain ⟨kept, hkept, hk⟩ := exists_dedupPairs hrest hnew'
    exact ⟨kept, mem_cons_of_mem _ hkept, hk⟩

theorem mem_dedupPairs_append {others : List (String × String)} :
    ∀ {pairs : List (String × String)} {seen : List String}, pair ∈ dedupPairs seen pairs →
      pair ∈ dedupPairs seen (pairs ++ others)
  | [], _, h => by cases h
  | first :: rest, seen, h => by
    unfold dedupPairs at h
    rw [cons_append, dedupPairs]
    split_ifs at h with hseen
    · rw [if_pos hseen]
      exact mem_dedupPairs_append h
    rw [if_neg hseen]
    rcases mem_cons.1 h with rfl | h
    · exact mem_cons_self
    · exact mem_cons_of_mem _ (mem_dedupPairs_append h)

theorem abilityKey_toList (pair : String × String) :
    (abilityKey pair).toList = pair.1.toList ++ '|' :: pair.2.toList := by
  unfold abilityKey
  rw [String.toList_append, String.toList_append, append_assoc]
  rfl

theorem ChannelRow.mem_pairs : pair ∈ row.pairs ↔ pair.1 ∈ row.groups ∧ pair.2 ∈ row.modelNames := by
  unfold ChannelRow.pairs
  simp only [List.mem_flatMap, List.mem_map]
  constructor
  · rintro ⟨model, hmodel, group, hgroup, rfl⟩
    exact ⟨hgroup, hmodel⟩
  · rintro ⟨hgroup, hmodel⟩
    exact ⟨pair.2, hmodel, pair.1, hgroup, rfl⟩

def ChannelRow.ability (row : ChannelRow) (pair : String × String) : Ability :=
  ⟨pair.1, pair.2, row.id, row.status = channelStatusEnabled, row.priority, row.weight⟩

theorem ChannelRow.mem_toAbilities {a : Ability} :
    a ∈ row.toAbilities ↔ ∃ pair ∈ dedupPairs [] row.pairs, row.ability pair = a :=
  List.mem_map

theorem key_of_mem_dedupPairs :
    ∀ {pairs : List (String × String)} {seen : List String}, pair ∈ dedupPairs seen pairs → abilityKey pair ∉ seen
  | [], _, h => by cases h
  | first :: rest, seen, h => by
    unfold dedupPairs at h
    split_ifs at h with hseen
    · exact key_of_mem_dedupPairs h
    rcases mem_cons.1 h with rfl | h
    · simpa using hseen
    · exact fun hin => key_of_mem_dedupPairs h (mem_cons_of_mem _ hin)

/-- Of the pairs with one text the first is kept. -/
theorem mem_dedupPairs_iff : ∀ {pairs : List (String × String)} {seen : List String}, abilityKey pair ∉ seen →
    (pair ∈ dedupPairs seen pairs ↔ pairs.find? (fun p => abilityKey p = abilityKey pair) = some pair)
  | [], _, _ => by simp [dedupPairs]
  | first :: rest, seen, hnew => by
    unfold dedupPairs
    by_cases hkey : abilityKey first = abilityKey pair
    · have hfirst : ¬seen.contains (abilityKey first) = true := by simpa [hkey] using hnew
      have hrest : pair ∉ dedupPairs (abilityKey first :: seen) rest := fun h =>
        key_of_mem_dedupPairs h (hkey ▸ mem_cons_self)
      rw [if_neg hfirst, find?_cons_of_pos (by simpa using hkey), mem_cons, or_iff_left hrest, some.injEq, eq_comm]
    · have hne : pair ≠ first := fun heq => hkey (heq ▸ rfl)
      rw [find?_cons_of_neg (by simpa using hkey)]
      split_ifs
      · exact mem_dedupPairs_iff hnew
      · rw [mem_cons, or_iff_right hne]
        exact mem_dedupPairs_iff (by simp [Ne.symm hkey, hnew])

theorem ChannelRow.group_mem_toAbilities {group : String} (hgroup : group ∈ row.groups) :
    group ∈ row.toAbilities.map Ability.group := by
  obtain ⟨model, models, hmodels⟩ := exists_cons_of_ne_nil (splitText_ne_nil ',' row.models)
  have hpairs : row.pairs = (row.groups.map fun g => (g, model)) ++
      models.flatMap fun m => row.groups.map fun g => (g, m) := by
    unfold ChannelRow.pairs modelNames
    rw [hmodels, flatMap_cons]
  have hin : (group, model) ∈ row.groups.map fun g => (g, model) := List.mem_map.2 ⟨group, hgroup, rfl⟩
  obtain ⟨kept, hkept, hkey⟩ := exists_dedupPairs hin not_mem_nil
  obtain ⟨g, -, rfl⟩ := List.mem_map.1 (mem_of_mem_dedupPairs hkept)
  have hg : g = group := by
    have hlist := congrArg String.toList hkey
    rw [abilityKey_toList, abilityKey_toList] at hlist
    exact String.toList_inj.1 (append_cancel_right hlist)
  rw [hg] at hkept
  have hability : row.ability (group, model) ∈ row.toAbilities := by
    refine mem_toAbilities.2 ⟨(group, model), ?_, rfl⟩
    rw [hpairs]
    exact mem_dedupPairs_append hkept
  exact List.mem_map.2 ⟨_, hability, rfl⟩

def ChannelCache.afterCalls (cache : ChannelCache) (calls : List (ℕ × ℤ)) : ChannelCache :=
  calls.foldl (fun cache call => cacheUpdateChannelStatus cache call.1 call.2) cache

def disablings (calls : List (ℕ × ℤ)) (id : ℕ) : ℕ :=
  calls.countP fun call => call.1 = id ∧ call.2 ≠ channelStatusEnabled

theorem count_cacheUpdate (cache : ChannelCache) (call : ℕ × ℤ) (id : ℕ) (group model : String) :
    ((cacheUpdateChannelStatus cache call.1 call.2).group2model2channels group model).count id =
      (cache.group2model2channels group model).count id - disablings [call] id := by
  unfold cacheUpdateChannelStatus disablings
  by_cases henabled : call.2 = channelStatusEnabled
  · simp [henabled]
  rw [if_neg henabled]
  by_cases hid : call.1 = id
  · simp [hid, henabled]
  · rw [count_erase_of_ne (Ne.symm hid)]
    simp [hid]

theorem count_afterCalls (id : ℕ) (group model : String) : ∀ (calls : List (ℕ × ℤ)) (cache : ChannelCache),
      ((cache.afterCalls calls).group2model2channels group model).count id =
        (cache.group2model2channels group model).count id - disablings calls id := by
  intro calls
  induction calls with
  | nil => intro cache; rfl
  | cons call calls ih =>
    intro cache
    have hcalls : disablings (call :: calls) id = disablings [call] id + disablings calls id := by
      unfold disablings
      rw [← countP_append, singleton_append]
    have hstep : cache.afterCalls (call :: calls) =
        (cacheUpdateChannelStatus cache call.1 call.2).afterCalls calls := rfl
    rw [hstep, ih, count_cacheUpdate, hcalls]
    omega

section
variable (decode : String → Option (List String)) (old : ChannelCache) (db : ChannelDB)

/-- The channel names no group together with a model more often than it was disabled. -/
def NamedAtMost (db : ChannelDB) (id n : ℕ) : Prop :=
  ∀ row ∈ db.rows, row.id = id → row.status = channelStatusEnabled → ∀ group model,
    row.groups.count group * row.modelNames.count model ≤ n

/-- **What disabling a channel does.** It is in no list just if it names no group together with a model more often
than it was disabled since the cache was built; then no choice returns it. -/
theorem disabled_not_selectable {cache : ChannelCache}
    (hinit : initChannelCache decode old db.rows db.abilities = some cache) {calls : List (ℕ × ℤ)}
    {id : ℕ} {status : ℤ} (hcall : (id, status) ∈ calls) (hstatus : status ≠ channelStatusEnabled) :
    ((∀ group model, id ∉ (cache.afterCalls calls).group2model2channels group model) ↔
      NamedAtMost db id (disablings calls id)) ∧
    ((∀ row ∈ db.rows, row.id = id → row.groups.Nodup ∧ row.modelNames.Nodup) →
      NamedAtMost db id (disablings calls id)) ∧
    (NamedAtMost db id (disablings calls id) → ∀ supportsPath abilities group model ignored path,
      (∀ rand, (cachedChannel ((cache.afterCalls calls).table true supportsPath abilities) rand group model
        ignored path).1 ≠ some id) ∧
      ∀ ch ∈ getSatisfiedChannels ((cache.afterCalls calls).table true supportsPath abilities) group model
        ignored path, ch.id ≠ id) := by
  have hlists : (∀ group model, id ∉ (cache.afterCalls calls).group2model2channels group model) ↔
      NamedAtMost db id (disablings calls id) := by
    have hcount : ∀ group model, id ∉ (cache.afterCalls calls).group2model2channels group model ↔
        (cache.group2model2channels group model).count id ≤ disablings calls id := by
      intro group model
      rw [← count_eq_zero, count_afterCalls]
      omega
    simp only [hcount]
    constructor
    · rintro hall row hrow rfl henabled group model
      have hle := hall group model
      rwa [count_initChannelCache db.nodup hinit hrow, if_pos henabled] at hle
    intro hnamed group model
    by_cases hin : id ∈ cache.group2model2channels group model
    · obtain ⟨row, hrow, rfl, henabled, -⟩ := (mem_initChannelCache hinit).1 hin
      rw [count_initChannelCache db.nodup hinit hrow, if_pos henabled]
      exact hnamed row hrow rfl henabled group model
    · rw [count_eq_zero.2 hin]
      exact Nat.zero_le _
  refine ⟨hlists, ?_, ?_⟩
  · intro hnodup row hrow hid _ group model
    obtain ⟨hgroups, hmodels⟩ := hnodup row hrow hid
    have hg : row.groups.count group ≤ 1 := nodup_iff_count_le_one.1 hgroups group
    have hm : row.modelNames.count model ≤ 1 := nodup_iff_count_le_one.1 hmodels model
    have hone : 1 ≤ disablings calls id := by
      unfold disablings
      rw [Nat.one_le_iff_ne_zero, ← Nat.pos_iff_ne_zero, countP_pos_iff]
      exact ⟨(id, status), hcall, by simp [hstatus]⟩
    exact (Nat.mul_le_mul hg hm).trans hone
  · intro hnamed supportsPath abilities group model ignored path
    have hnone := hlists.2 hnamed
    refine ⟨fun rand hrand => ?_, fun ch hch hid => ?_⟩
    · rcases listed_of_mem_satisfying (cachedChannel_mem hrand).2 with hin | hin
      · exact hnone _ _ hin
      · exact hnone _ _ hin
    have hin := (getSatisfiedChannels_mem hch).2
    rw [hid] at hin
    exact hnone _ _ hin

def emptyCache : ChannelCache := ⟨fun _ _ => [], fun _ => none, fun _ _ h => nomatch h⟩

def defaultRow (id : ℕ) (models : String) : ChannelRow where
  id := id
  priority := 0
  weight := 0
  responseTime := 0
  discount := fun _ => 1
  advancedCustom := false
  key := "key"
  status := channelStatusEnabled
  models := models
  group := "default"
  otherInfo := fun _ => none
  channelInfo := {}
  keys := []

def oneRow (models : String) : ChannelDB :=
  ⟨[defaultRow 2 models], nodup_singleton _, (defaultRow 2 models).toAbilities⟩

def noArrays : String → Option (List String) := fun _ => none

theorem disabled_not_selectable_once :
    ∃ cache, initChannelCache noArrays emptyCache (oneRow "gpt,o1").rows (oneRow "gpt,o1").abilities = some cache ∧
      ∀ group model, 2 ∉ (cache.afterCalls [(2, channelStatusAutoDisabled)]).group2model2channels group model := by
  have hsome : (initChannelCache noArrays emptyCache (oneRow "gpt,o1").rows
      (oneRow "gpt,o1").abilities).isSome = true := by decide
  obtain ⟨cache, hinit⟩ := isSome_iff_exists.1 hsome
  have hcall : (2, channelStatusAutoDisabled) ∈ [(2, channelStatusAutoDisabled)] := mem_cons_self
  obtain ⟨hlists, hnodup, -⟩ := disabled_not_selectable noArrays emptyCache (oneRow "gpt,o1") hinit hcall (by decide)
  refine ⟨cache, hinit, hlists.2 (hnodup ?_)⟩
  intro row hrow _
  obtain rfl := mem_singleton.1 hrow
  decide

/-- Channel 2 names `gpt` twice: disabled, it is chosen still. -/
theorem disabled_selected :
    ((initChannelCache noArrays emptyCache (oneRow "gpt,gpt").rows (oneRow "gpt,gpt").abilities).map fun cache =>
      (cachedChannel ((cache.afterCalls [(2, channelStatusAutoDisabled)]).table true (fun _ _ _ => true) [])
        0 "default" "gpt" [] "/v1/chat/completions").1) = some (some 2) := by
  decide +kernel

end

end NewApi
