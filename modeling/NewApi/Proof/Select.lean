import NewApi.Proof.ChannelCache

/-!
# Choosing from the database and from the cache

Both choices are meant to draw one of the best candidates: of the highest priority among the channels that serve the
model in the group, take the path and are not ignored. The choice from the cache does. The one from the database
compares pointers to the priorities, so it returns the first row of its query and no other.
-/

namespace NewApi

open Ability ChannelRow List Option

section General

variable {ch : Channel}

instance : Std.Total before := ⟨fun a b => by unfold before; omega⟩

instance : IsTrans Ability before := ⟨fun a b c => by unfold before; omega⟩

theorem topAbilities_eq (found : List Ability) : topAbilities found = ((found.insertionSort before).head?).toList := by
  unfold topAbilities
  cases found.insertionSort before with
  | nil => rfl
  | cons first rest =>
    have hrest : (rest.zipIdx 1).takeWhile (fun row => decide (row.2 = 0)) = [] := by
      cases rest with
      | nil => rfl
      | cons => simp
    simp [zipIdx_cons, hrest]

theorem head_top {found : List Ability} {first : Ability} (h : (found.insertionSort before).head? = some first) :
    first ∈ found ∧ ∀ a ∈ found, a.priority ≤ first.priority := by
  obtain ⟨rest, hsort⟩ : ∃ rest, found.insertionSort before = first :: rest := by
    cases hcase : found.insertionSort before with
    | nil => rw [hcase] at h; cases h
    | cons a rest => rw [hcase] at h; exact ⟨rest, by rw [some.inj h]⟩
  have hmem : ∀ a, a ∈ found ↔ a ∈ first :: rest := by
    intro a
    rw [← hsort, mem_insertionSort]
  have hsorted := pairwise_insertionSort before found
  rw [hsort, pairwise_cons] at hsorted
  refine ⟨(hmem first).2 mem_cons_self, fun a ha => ?_⟩
  rcases mem_cons.1 ((hmem a).1 ha) with rfl | ha
  · exact le_rfl
  have hbefore := hsorted.1 a ha
  unfold before at hbefore
  omega

theorem sum_effective (factor adjustment : ℕ) (channels : List Channel) :
    (channels.map fun ch => ch.weight * factor + adjustment).sum =
      (channels.map Channel.weight).sum * factor + channels.length * adjustment := by
  induction channels with
  | nil => simp
  | cons ch channels ih =>
    simp only [map_cons, sum_cons, length_cons, ih, Nat.add_mul]
    omega

theorem exists_pickWeighted {factor adjustment : ℕ} (hpos : 0 < ch.weight * factor + adjustment) :
    ∀ {channels : List Channel}, ch ∈ channels → ∃ r < (channels.map fun ch => ch.weight * factor + adjustment).sum,
        pickWeighted factor adjustment channels r = some ch
  | [], h => by cases h
  | first :: rest, h => by
    rw [map_cons, sum_cons]
    rcases mem_cons.1 h with rfl | h
    · exact ⟨0, by omega, if_pos hpos⟩
    obtain ⟨r, hr, hpick⟩ := exists_pickWeighted hpos h
    refine ⟨first.weight * factor + adjustment + r, by omega, ?_⟩
    rw [pickWeighted, if_neg (by omega), Nat.add_sub_cancel_left]
    exact hpick

theorem exists_pickTarget {targets : List Channel} (hch : ch ∈ targets)
    (hweights : (∀ t ∈ targets, t.weight = 0) ∨ ∀ t ∈ targets, 0 < t.weight) :
    ∃ rand, pickTarget rand targets = some ch := by
  have hdraw : ∀ {factor adjustment total : ℕ}, 0 < ch.weight * factor + adjustment →
      total = (targets.map Channel.weight).sum * factor + targets.length * adjustment →
      ∃ rand, pickWeighted factor adjustment targets (rand % total) = some ch := by
    intro factor adjustment total hpos htotal
    obtain ⟨r, hr, hpick⟩ := exists_pickWeighted hpos hch
    rw [sum_effective, ← htotal] at hr
    exact ⟨r, by rw [Nat.mod_eq_of_lt hr, hpick]⟩
  unfold pickTarget
  dsimp only
  by_cases hsum : (targets.map Channel.weight).sum = 0
  · simp only [if_pos hsum]
    exact hdraw (by omega) (by omega)
  simp only [if_neg hsum]
  have hpos : 0 < ch.weight := by
    rcases hweights with hzero | hall
    · have hnone : (targets.map Channel.weight).sum = 0 := by
        rw [List.sum_eq_zero_iff_forall_eq_nat]
        simpa using hzero
      exact absurd hnone hsum
    · exact hall ch hch
  split
  · exact hdraw (by omega) (by omega)
  · exact hdraw (by omega) (by omega)

theorem mem_topPriority {channels : List Channel} :
    ch ∈ topPriority channels ↔ ch ∈ channels ∧ ∀ other ∈ channels, other.priority ≤ ch.priority := by
  unfold topPriority
  rw [mem_filter]
  simp

end General

def ChannelRow.accepts (row : ChannelRow) (supportsPath : ℕ → String → String → Bool) (path model : String) : Bool :=
  decide (path = "") || !row.advancedCustom || supportsPath row.id path model

/-- The pair is the first of the channel with its text, by which `AddAbilities` removes duplicates. -/
def ChannelRow.Keeps (row : ChannelRow) (group model : String) : Prop :=
  row.pairs.find? (fun pair => abilityKey pair = abilityKey (group, model)) = some (group, model)

/-- What a channel is wanted for, and the rows it is chosen from -/
structure ChannelQuery where
  db : ChannelDB
  supportsPath : ℕ → String → String → Bool
  (group model path : String)
  ignored : List ℕ

namespace ChannelQuery

section Best

variable (q : ChannelQuery)

abbrev dbTable : ChannelTable := q.db.table q.supportsPath

abbrev cacheTable (cache : ChannelCache) : ChannelTable := cache.table true q.supportsPath q.db.abilities

/-- The row is listed under the name, and takes the path. -/
def Serves (row : ChannelRow) (name : String) : Prop :=
  q.group ∈ row.groups ∧ name ∈ row.modelNames ∧ row.accepts q.supportsPath q.path q.model = true

structure Candidate (row : ChannelRow) : Prop where
  mem : row ∈ q.db.rows
  serves : q.Serves row q.model
  fresh : row.id ∉ q.ignored

structure Best (row : ChannelRow) : Prop extends q.Candidate row where
  top : ∀ other, q.Candidate other → other.priority ≤ row.priority

/-- The channel is the choice for some numbers drawn, when the database can be read. -/
def Draws (tbl : ChannelTable) (id : ℕ) : Prop :=
  ∃ rand, getRandomSatisfiedChannel tbl { rand := rand } q.group q.model q.ignored q.path = (some id, false)

/-- The best candidates are drawn, and no others. -/
def DrawsBest (tbl : ChannelTable) : Prop := ∀ id, q.Draws tbl id ↔ ∃ row, q.Best row ∧ row.id = id

/-- None of the best candidates has a weight, or all have. -/
def Balanced : Prop := (∀ row, q.Best row → row.weight = 0) ∨ ∀ row, q.Best row → 0 < row.weight

/-- The cache does not look under the normalized name, or it finds no channel there that is not ignored. -/
def OwnName : Prop :=
  (∃ row ∈ q.db.rows, q.Serves row q.model) ∨
    ∀ row ∈ q.db.rows, q.Serves row (formatMatchingModelName q.model) → row.id ∈ q.ignored

def HasRows (tbl : ChannelTable) : Prop :=
  tbl.supportsPath = q.supportsPath ∧ ∀ row ∈ q.db.rows, tbl.channelsIDM row.id = some row.toChannel

/-- The ids are those of the candidates. -/
def Lists (valid : List ℕ) : Prop := ∀ id, id ∈ valid ↔ ∃ row, q.Candidate row ∧ row.id = id

end Best

variable {q : ChannelQuery} {decode : String → Option (List String)} {old cache : ChannelCache} {id : ℕ}

theorem table_hasRows : q.HasRows q.dbTable := by
  refine ⟨rfl, fun row hrow => ?_⟩
  change (q.db.row row.id).map toChannel = _
  rw [q.db.row_eq hrow, map_some]

theorem cache_hasRows (hinit : initChannelCache decode old q.db.rows q.db.abilities = some cache) :
    q.HasRows (q.cacheTable cache) := by
  refine ⟨rfl, fun row hrow => ?_⟩
  obtain ⟨index, -, rfl⟩ := map_eq_some_iff.1 hinit
  have hnodup : (q.db.rows.reverse.map fun row => row.id).Nodup := by
    rw [map_reverse, nodup_reverse]
    exact q.db.nodup
  have hfind := find_row hnodup (mem_reverse.2 hrow)
  simp [cacheTable, ChannelCache.table, hfind, cacheRow_toChannel]

theorem HasRows.servesPath {tbl : ChannelTable} (h : q.HasRows tbl) {row : ChannelRow} (hrow : row ∈ q.db.rows) :
    (decide (q.path = "") || servesPath tbl q.path q.model row.id) = row.accepts q.supportsPath q.path q.model := by
  unfold NewApi.servesPath accepts
  rw [h.2 row hrow, h.1, Bool.or_assoc]

/-- The rows of the query -/
abbrev found (q : ChannelQuery) : List Ability :=
  foundAbilities q.dbTable { rand := 0 } q.group q.model q.ignored q.path

theorem draws_db : q.Draws q.dbTable id ↔ ∃ first, (q.found.insertionSort before).head? = some first ∧
    first.channelId = id := by
  have hchoice : ∀ rand, getRandomSatisfiedChannel q.dbTable { rand := rand } q.group q.model q.ignored q.path =
      getChannelFromDB q.dbTable { rand := rand } q.group q.model q.ignored q.path := fun _ => rfl
  have hfound : ∀ rand, foundAbilities q.dbTable { rand := rand } q.group q.model q.ignored q.path = q.found :=
    fun _ => rfl
  unfold Draws
  simp only [hchoice, getChannelFromDB, hfound, topAbilities_eq]
  cases (q.found.insertionSort before).head? with
  | none => simp [pickAbility]
  | some first =>
    have hpick : ∀ rand, pickAbility [first] (rand % (first.weight + 10)) = some first.channelId := by
      intro rand
      have hlt : rand % (first.weight + 10) < first.weight + 10 := Nat.mod_lt _ (by omega)
      simp [pickAbility, hlt.le]
    simp [hpick]

theorem mem_found (henabled : ∀ row ∈ q.db.rows, row.status = channelStatusEnabled)
    (habilities : q.db.abilities = q.db.rows.flatMap toAbilities) {a : Ability} :
    a ∈ q.found ↔ ∃ row, q.Candidate row ∧ row.Keeps q.group q.model ∧ row.ability (q.group, q.model) = a := by
  have htable : q.dbTable.abilities = q.db.rows.flatMap toAbilities := habilities
  unfold found foundAbilities
  rw [mem_filter, htable, mem_flatMap]
  simp only [Bool.and_eq_true, Bool.or_false, decide_eq_true_eq, Bool.not_eq_true', contains_eq_mem,
    decide_eq_false_iff_not]
  constructor
  · rintro ⟨⟨row, hrow, ha⟩, ⟨⟨⟨hgroup, hmodel⟩, -⟩, hfresh⟩, hpath⟩
    obtain ⟨pair, hpair, rfl⟩ := mem_toAbilities.1 ha
    obtain rfl : pair = (q.group, q.model) := Prod.ext hgroup hmodel
    obtain ⟨hg, hm⟩ := mem_pairs.1 (mem_of_mem_dedupPairs hpair)
    have haccepts := (table_hasRows.servesPath hrow).symm.trans hpath
    exact ⟨row, ⟨hrow, ⟨hg, hm, haccepts⟩, hfresh⟩, (mem_dedupPairs_iff not_mem_nil).1 hpair, rfl⟩
  rintro ⟨row, hcand, hkeeps, rfl⟩
  have hmem : row.ability (q.group, q.model) ∈ row.toAbilities :=
    mem_toAbilities.2 ⟨_, (mem_dedupPairs_iff not_mem_nil).2 hkeeps, rfl⟩
  refine ⟨⟨row, hcand.mem, hmem⟩, ⟨⟨⟨rfl, rfl⟩, ?_⟩, hcand.fresh⟩, ?_⟩
  · simpa [ability] using henabled row hcand.mem
  · exact (table_hasRows.servesPath hcand.mem).trans hcand.serves.2.2

section Cached

variable {tbl : ChannelTable}

theorem mem_filterChannels {channels : List ℕ} : id ∈ filterChannels tbl channels q.path q.model ↔
      id ∈ channels ∧ (decide (q.path = "") || servesPath tbl q.path q.model id) = true := by
  unfold filterChannels
  by_cases hpath : q.path = "" <;> simp [hpath]

/-- The channels of the cache under a name that take the path -/
abbrev listed (q : ChannelQuery) (tbl : ChannelTable) (name : String) : List ℕ :=
  filterChannels tbl (tbl.group2model2channels q.group name) q.path q.model

/-- The channels that the choice from the cache is made of -/
abbrev valid (q : ChannelQuery) (tbl : ChannelTable) : List ℕ :=
  (satisfying tbl q.group q.model q.path).filter fun id => !q.ignored.contains id

theorem mem_valid_iff : id ∈ q.valid tbl ↔ id ∉ q.ignored ∧ id ∈ if q.listed tbl q.model = [] then
    q.listed tbl (tbl.formatMatchingModelName q.model) else q.listed tbl q.model := by
  rw [mem_filter, and_comm, Bool.not_eq_true', contains_eq_mem, decide_eq_false_iff_not]
  rfl

theorem cacheTable_formatMatchingModelName (q : ChannelQuery) (cache : ChannelCache) :
    (q.cacheTable cache).formatMatchingModelName = formatMatchingModelName := by
  unfold cacheTable ChannelCache.table
  with_reducible rfl

theorem mem_listed (henabled : ∀ row ∈ q.db.rows, row.status = channelStatusEnabled)
    (hinit : initChannelCache decode old q.db.rows q.db.abilities = some cache) {name : String} :
    id ∈ q.listed (q.cacheTable cache) name ↔ ∃ row ∈ q.db.rows, q.Serves row name ∧ row.id = id := by
  have hrows : q.HasRows (q.cacheTable cache) := cache_hasRows hinit
  rw [listed, mem_filterChannels]
  change id ∈ cache.group2model2channels q.group name ∧ _ ↔ _
  rw [mem_initChannelCache hinit]
  constructor
  · rintro ⟨⟨row, hrow, rfl, -, hg, hm⟩, hpath⟩
    exact ⟨row, hrow, ⟨hg, hm, (hrows.servesPath hrow).symm.trans hpath⟩, rfl⟩
  · rintro ⟨row, hrow, ⟨hg, hm, hpath⟩, rfl⟩
    exact ⟨⟨row, hrow, rfl, henabled row hrow, hg, hm⟩, (hrows.servesPath hrow).trans hpath⟩

theorem lists_valid (hformat : tbl.formatMatchingModelName = formatMatchingModelName)
    (hlist : ∀ {name id}, id ∈ q.listed tbl name ↔ ∃ row ∈ q.db.rows, q.Serves row name ∧ row.id = id)
    (hname : q.OwnName) : q.Lists (q.valid tbl) := by
  intro id
  rw [mem_valid_iff, hformat]
  split_ifs with hnone
  · -- no channel serves the model under its own name
    have hno : ∀ row ∈ q.db.rows, ¬ q.Serves row q.model := by
      intro row hrow hserves
      have hin := hlist.2 ⟨row, hrow, hserves, rfl⟩
      rw [hnone] at hin
      cases hin
    rw [hlist]
    constructor
    · rintro ⟨hfresh, row, hrow, hserves, rfl⟩
      rcases hname with ⟨other, hother, hown⟩ | hignored
      · exact absurd hown (hno other hother)
      · exact absurd (hignored row hrow hserves) hfresh
    · rintro ⟨row, hcand, rfl⟩
      exact absurd hcand.serves (hno row hcand.mem)
  · rw [hlist]
    constructor
    · rintro ⟨hfresh, row, hrow, hserves, rfl⟩
      exact ⟨row, ⟨hrow, hserves, hfresh⟩, rfl⟩
    · rintro ⟨row, hcand, rfl⟩
      exact ⟨hcand.fresh, row, hcand.mem, hcand.serves, rfl⟩

section

variable {valid : List ℕ} (hrows : q.HasRows tbl) (hvalid : q.Lists valid)
include hrows hvalid

theorem channel_of_valid {x : ℕ} (hx : x ∈ valid) :
    ∃ row, q.Candidate row ∧ row.id = x ∧ tbl.channelsIDM x = some row.toChannel := by
  obtain ⟨row, hcand, rfl⟩ := (hvalid x).1 hx
  exact ⟨row, hcand, rfl, hrows.2 row hcand.mem⟩

theorem mem_targets (ch : Channel) :
    ch ∈ topPriority (valid.filterMap tbl.channelsIDM) ↔ ∃ row, q.Best row ∧ row.toChannel = ch := by
  have hmem : ∀ ch, ch ∈ valid.filterMap tbl.channelsIDM ↔ ∃ row, q.Candidate row ∧ row.toChannel = ch := by
    intro ch
    rw [mem_filterMap]
    constructor
    · rintro ⟨x, hx, hch⟩
      obtain ⟨row, hcand, -, hrow⟩ := channel_of_valid hrows hvalid hx
      exact ⟨row, hcand, some.inj (hrow.symm.trans hch)⟩
    · rintro ⟨row, hcand, rfl⟩
      exact ⟨row.id, (hvalid row.id).2 ⟨row, hcand, rfl⟩, hrows.2 row hcand.mem⟩
  rw [mem_topPriority, hmem]
  constructor
  · rintro ⟨⟨row, hcand, rfl⟩, htop⟩
    exact ⟨row, ⟨hcand, fun other hother => htop _ ((hmem _).2 ⟨other, hother, rfl⟩)⟩, rfl⟩
  rintro ⟨row, hbest, rfl⟩
  refine ⟨⟨row, hbest.toCandidate, rfl⟩, fun ch hch => ?_⟩
  obtain ⟨other, hother, rfl⟩ := (hmem ch).1 hch
  exact hbest.top other hother

theorem exists_draw_iff (hweights : q.Balanced) :
    (∃ rand ch, pickTarget rand (topPriority (valid.filterMap tbl.channelsIDM)) = some ch ∧ ch.id = id) ↔
      ∃ row, q.Best row ∧ row.id = id := by
  have htargets := mem_targets hrows hvalid
  constructor
  · rintro ⟨rand, ch, hpick, rfl⟩
    obtain ⟨row, hbest, rfl⟩ := (htargets ch).1 (pickTarget_mem hpick)
    exact ⟨row, hbest, rfl⟩
  rintro ⟨row, hbest, rfl⟩
  have hequal : (∀ t ∈ topPriority (valid.filterMap tbl.channelsIDM), t.weight = 0) ∨
      ∀ t ∈ topPriority (valid.filterMap tbl.channelsIDM), 0 < t.weight := by
    refine hweights.imp (fun h t ht => ?_) fun h t ht => ?_
    all_goals
      obtain ⟨row, hbest, rfl⟩ := (htargets t).1 ht
      exact h row hbest
  obtain ⟨rand, hpick⟩ := exists_pickTarget ((htargets _).2 ⟨row, hbest, rfl⟩) hequal
  exact ⟨rand, _, hpick, rfl⟩

end

theorem best_of_single {x : ℕ} (hvalid : q.Lists [x]) : x = id ↔ ∃ row, q.Best row ∧ row.id = id := by
  obtain ⟨row, hcand, hx⟩ := (hvalid x).1 mem_cons_self
  have honly : ∀ other, q.Candidate other → other = row := by
    intro other hother
    have hin := (hvalid other.id).2 ⟨other, hother, rfl⟩
    exact eq_of_id_eq hother.mem hcand.mem ((mem_singleton.1 hin).trans hx.symm)
  constructor
  · rintro rfl
    exact ⟨row, ⟨hcand, fun other hother => by rw [honly other hother]⟩, hx⟩
  · rintro ⟨other, hother, rfl⟩
    rw [honly other hother.toCandidate, hx]

theorem draws_cache (hrows : q.HasRows tbl) (hmemory : tbl.memoryCacheEnabled = true) (hvalid : q.Lists (q.valid tbl))
    (hweights : q.Balanced) : q.DrawsBest tbl := by
  intro id
  have hchoice : ∀ rand, getRandomSatisfiedChannel tbl { rand := rand } q.group q.model q.ignored q.path =
      cachedChannel tbl rand q.group q.model q.ignored q.path := fun _ => if_pos hmemory
  unfold Draws
  simp only [hchoice, cachedChannel]
  unfold ChannelQuery.valid at hvalid
  generalize (satisfying tbl q.group q.model q.path).filter (fun id => !q.ignored.contains id) = valid at hvalid
  cases valid with
  | nil =>
    simp only [Prod.mk.injEq, reduceCtorEq, false_and, exists_false, false_iff, not_exists, not_and]
    intro row hbest hid
    cases (hvalid row.id).2 ⟨row, hbest.toCandidate, rfl⟩
  | cons x rest =>
    cases rest with
    | nil =>
      obtain ⟨row, -, -, hrow⟩ := channel_of_valid hrows hvalid mem_cons_self
      simp only [hrow, Prod.mk.injEq, some.injEq, and_true, exists_const]
      exact best_of_single hvalid
    | cons y rest =>
      have hall : ((x :: y :: rest).all fun id => (tbl.channelsIDM id).isSome) = true := by
        rw [List.all_eq_true]
        intro z hz
        obtain ⟨row, -, -, hrow⟩ := channel_of_valid hrows hvalid hz
        rw [hrow]
        rfl
      rw [← exists_draw_iff hrows hvalid hweights]
      simp only [hall, if_true]
      refine exists_congr fun rand => ?_
      cases pickTarget rand (topPriority ((x :: y :: rest).filterMap tbl.channelsIDM)) with
      | none => simp
      | some => simp

end Cached

end ChannelQuery

end NewApi
