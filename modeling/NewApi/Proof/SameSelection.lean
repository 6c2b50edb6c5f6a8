import NewApi.Proof.WeightedChoice

/-!
# What the two choices draw from

The database returns the first row of its query and no other, which is the best candidate if there is one only and its
ability was not removed as a duplicate (`draws_db_iff`). The cache draws just the best candidates, unless it looks under
the normalized name (`draws_cache_iff`).
-/

namespace NewApi

open Ability ChannelRow List Option

namespace ChannelQuery

variable {q : ChannelQuery} {decode : String → Option (List String)} {old cache : ChannelCache} {id : ℕ}
  {row : ChannelRow}

theorem exists_best (h : q.Candidate row) : ∃ best, q.Best best := by
  obtain ⟨best, hbest, htop⟩ := Set.exists_max_image {row | q.Candidate row} (fun row => row.priority)
    (q.db.rows.finite_toSet.subset fun row h => h.mem) ⟨row, h⟩
  exact ⟨best, hbest, htop⟩

section Enabled

variable (henabled : ∀ row ∈ q.db.rows, row.status = channelStatusEnabled)
include henabled

section Database

variable (habilities : q.db.abilities = q.db.rows.flatMap toAbilities)
include habilities

/-- The first row of the query -/
theorem draws_db_kept (h : q.Draws q.dbTable id) : ∃ row, q.Candidate row ∧ row.Keeps q.group q.model ∧ row.id = id ∧
    ∀ other, q.Candidate other → other.Keeps q.group q.model → other.priority ≤ row.priority := by
  obtain ⟨first, hhead, rfl⟩ := draws_db.1 h
  obtain ⟨hmem, htop⟩ := head_top hhead
  obtain ⟨row, hcand, hkeeps, rfl⟩ := (mem_found henabled habilities).1 hmem
  refine ⟨row, hcand, hkeeps, rfl, fun other hother hkept => ?_⟩
  exact htop _ ((mem_found henabled habilities).2 ⟨other, hother, hkept, rfl⟩)

theorem exists_draws_db (h : q.Candidate row) (hkeeps : row.Keeps q.group q.model) : ∃ id, q.Draws q.dbTable id := by
  have hmem := (mem_found henabled habilities).2 ⟨row, h, hkeeps, rfl⟩
  rw [← mem_insertionSort before] at hmem
  obtain ⟨first, rest, hsort⟩ := exists_cons_of_ne_nil (ne_nil_of_mem hmem)
  exact ⟨first.channelId, draws_db.2 ⟨first, by rw [hsort, head?_cons], rfl⟩⟩

theorem draws_db_iff : q.DrawsBest q.dbTable ↔ (∀ row other, q.Best row → q.Best other → row = other) ∧
    ∀ row, q.Best row → row.Keeps q.group q.model := by
  constructor
  · intro hall
    refine ⟨fun row other hrow hother => ?_, fun row hrow => ?_⟩
    · obtain ⟨first, hhead, hid⟩ := draws_db.1 ((hall row.id).2 ⟨row, hrow, rfl⟩)
      obtain ⟨first', hhead', hid'⟩ := draws_db.1 ((hall other.id).2 ⟨other, hother, rfl⟩)
      obtain rfl := some.inj (hhead.symm.trans hhead')
      exact eq_of_id_eq hrow.mem hother.mem (hid.symm.trans hid')
    · obtain ⟨drawn, hcand, hkeeps, hid, -⟩ := draws_db_kept henabled habilities ((hall row.id).2 ⟨row, hrow, rfl⟩)
      rwa [← eq_of_id_eq hcand.mem hrow.mem hid]
  rintro ⟨hunique, hkeeps⟩ id
  constructor
  · intro hdraw
    obtain ⟨row, hcand, -, hid, htop⟩ := draws_db_kept henabled habilities hdraw
    obtain ⟨best, hbest⟩ := exists_best hcand
    have hle := htop best hbest.toCandidate (hkeeps best hbest)
    exact ⟨row, ⟨hcand, fun other hother => (hbest.top other hother).trans hle⟩, hid⟩
  rintro ⟨row, hrow, rfl⟩
  obtain ⟨drawn, hdraw⟩ := exists_draws_db henabled habilities hrow.toCandidate (hkeeps row hrow)
  obtain ⟨other, hcand, -, rfl, htop⟩ := draws_db_kept henabled habilities hdraw
  have hother : q.Best other :=
    ⟨hcand, fun third hthird => (hrow.top third hthird).trans (htop row hrow.toCandidate (hkeeps row hrow))⟩
  rwa [hunique row other hrow hother]

end Database

section Cache

variable (hinit : initChannelCache decode old q.db.rows q.db.abilities = some cache)
include hinit

/-- Under the normalized name a channel is drawn, if there is one that is not ignored. -/
theorem draws_cache_other (hnone : ∀ row ∈ q.db.rows, ¬q.Serves row q.model) (hrow : row ∈ q.db.rows)
    (hserves : q.Serves row (formatMatchingModelName q.model)) (hfresh : row.id ∉ q.ignored) :
    ∃ id, q.Draws (q.cacheTable cache) id := by
  have hempty : q.listed (q.cacheTable cache) q.model = [] := by
    refine eq_nil_iff_forall_not_mem.2 fun id hid => ?_
    obtain ⟨row, hrow, hserves, -⟩ := (mem_listed henabled hinit).1 hid
    exact hnone row hrow hserves
  have hvalid (id) : id ∈ q.valid (q.cacheTable cache) ↔ id ∉ q.ignored ∧
      ∃ row ∈ q.db.rows, q.Serves row (formatMatchingModelName q.model) ∧ row.id = id := by
    rw [mem_valid_iff, if_pos hempty, cacheTable_formatMatchingModelName, mem_listed henabled hinit]
  have hmem := (hvalid row.id).2 ⟨hfresh, row, hrow, hserves, rfl⟩
  have hrows : q.HasRows (q.cacheTable cache) := cache_hasRows hinit
  have hsome : ∀ id ∈ q.valid (q.cacheTable cache), ((q.cacheTable cache).channelsIDM id).isSome = true := by
    intro id hid
    obtain ⟨-, row, hrow, -, rfl⟩ := (hvalid id).1 hid
    rw [hrows.2 row hrow]
    rfl
  have hpos := totalWeight_pos (topPriority_ne_nil (ne_nil_of_mem (mem_filterMap.2 ⟨_, hmem, hrows.2 row hrow⟩)))
  obtain ⟨ch, -, hdraw⟩ := cachedChannel_eq rfl hsome hpos
  exact ⟨ch.id, 0, hdraw⟩

theorem draws_cache_iff (hweights : q.Balanced) : q.DrawsBest (q.cacheTable cache) ↔ q.OwnName := by
  constructor
  · intro hall
    by_contra hother
    simp only [OwnName, not_or, not_exists, not_and, not_forall] at hother
    obtain ⟨hnone, row, hrow, hserves, hfresh⟩ := hother
    obtain ⟨id, hdraw⟩ := draws_cache_other henabled hinit hnone hrow hserves hfresh
    obtain ⟨best, hbest, -⟩ := (hall id).1 hdraw
    exact hnone best hbest.mem hbest.serves
  · intro hname
    have hlists := lists_valid (cacheTable_formatMatchingModelName q cache) (mem_listed henabled hinit) hname
    exact draws_cache (cache_hasRows hinit) rfl hlists hweights

end Cache

end Enabled

end ChannelQuery

/-- **What the two choices draw from**, for enabled channels with the abilities made of them: the database returns just
the best candidates exactly if there is no more than one and its ability is kept, the cache draws just those, when none
or all have a weight, exactly if it does not find other channels under the normalized name. -/
theorem same_selection_iff (q : ChannelQuery) (decode : String → Option (List String)) (old : ChannelCache)
    (henabled : ∀ row ∈ q.db.rows, row.status = channelStatusEnabled)
    (habilities : q.db.abilities = q.db.rows.flatMap toAbilities) :
    (q.DrawsBest q.dbTable ↔ (∀ row other, q.Best row → q.Best other → row = other) ∧
      ∀ row, q.Best row → row.Keeps q.group q.model) ∧
    ∃ cache, initChannelCache decode old q.db.rows q.db.abilities = some cache ∧
      (q.Balanced → (q.DrawsBest (q.cacheTable cache) ↔ q.OwnName)) := by
  refine ⟨ChannelQuery.draws_db_iff henabled habilities, ?_⟩
  have hsome : (initChannelCache decode old q.db.rows q.db.abilities).isSome = true := by
    rw [initChannelCache_isSome]
    intro row hrow _ g hg
    obtain ⟨a, ha, rfl⟩ := List.mem_map.1 (group_mem_toAbilities hg)
    rw [habilities]
    exact List.mem_map.2 ⟨a, mem_flatMap.2 ⟨row, hrow, ha⟩, rfl⟩
  obtain ⟨cache, hinit⟩ := isSome_iff_exists.1 hsome
  exact ⟨cache, hinit, ChannelQuery.draws_cache_iff henabled hinit⟩

/-- Channels 2 and 3 of the model `gpt`, of which the first has the priority -/
def twoChannels (priority : ℤ) : ChannelQuery where
  db.rows := [{ defaultRow 2 "gpt" with priority := priority }, defaultRow 3 "gpt"]
  db.nodup := by simp [defaultRow]
  db.abilities := [{ defaultRow 2 "gpt" with priority := priority }, defaultRow 3 "gpt"].flatMap toAbilities
  supportsPath _ _ _ := true
  group := "default"
  model := "gpt"
  path := ""
  ignored := []

theorem same_selection_levels :
    let q := twoChannels 5
    ∃ cache, initChannelCache noArrays emptyCache q.db.rows q.db.abilities = some cache ∧
      ∀ id, q.Draws q.dbTable id ↔ q.Draws (q.cacheTable cache) id := by
  intro q
  set first : ChannelRow := { defaultRow 2 "gpt" with priority := 5 }
  have hrows : ∀ row ∈ q.db.rows, row = first ∨ row = defaultRow 3 "gpt" := by
    intro row hrow
    simpa [q, twoChannels] using hrow
  have hcand : q.Candidate first := ⟨mem_cons_self, ⟨by decide, by decide, rfl⟩, not_mem_nil⟩
  have hbest : ∀ row, q.Best row → row = first := by
    intro row hrow
    rcases hrows row hrow.mem with rfl | rfl
    · rfl
    · exact absurd (hrow.top first hcand) (by decide)
  obtain ⟨hdb, cache, hinit, hcache⟩ := same_selection_iff q noArrays emptyCache
    (fun row hrow => by rcases hrows row hrow with rfl | rfl <;> rfl) rfl
  refine ⟨cache, hinit, fun id => ?_⟩
  have hkeeps : first.Keeps "default" "gpt" := by
    unfold ChannelRow.Keeps
    decide +kernel
  have hfromDB := hdb.2 ⟨fun row other hrow hother => (hbest row hrow).trans (hbest other hother).symm,
    fun row hrow => hbest row hrow ▸ hkeeps⟩
  have hfromCache := (hcache (.inl fun row hrow => by rw [hbest row hrow]; rfl)).2
    (.inl ⟨first, hcand.mem, hcand.serves⟩)
  exact (hfromDB id).trans (hfromCache id).symm

/-- With the same priority channel 3 is drawn from the cache, and never from the database. -/
theorem second_channel_never_drawn :
    let q := twoChannels 0
    ((initChannelCache noArrays emptyCache q.db.rows q.db.abilities).map fun cache => [0, 100].map fun rand =>
        getRandomSatisfiedChannel (q.cacheTable cache) { rand := rand } "default" "gpt" [] "") =
          some [(some 2, false), (some 3, false)] ∧
      ¬ q.Draws q.dbTable 3 := by
  intro q
  refine ⟨by decide +kernel, fun hdraw => ?_⟩
  obtain ⟨first, hhead, hid⟩ := ChannelQuery.draws_db.1 hdraw
  have hfirst : ((q.found.insertionSort before).head?.map channelId) = some 2 := by decide +kernel
  rw [hhead, map_some, hid] at hfirst
  cases hfirst

end NewApi
