import NewApi.Spec.MultiKey

/-!
# The cache of channels

`model/channel_cache.go` keeps every channel by its id, and by group and model the ids of the enabled ones.
`InitChannelCache` builds both from the tables; `CacheUpdateChannelStatus` follows the changes of
`UpdateChannelStatus` (`model/channel.go`). The abilities of `model/ability.go` are the same index in the database.
-/

namespace NewApi

structure ChannelDB where
  rows : List ChannelRow
  /-- the id is the primary key -/
  nodup : (rows.map fun row => row.id).Nodup
  abilities : List Ability

def ChannelDB.row (db : ChannelDB) (id : ℕ) : Option ChannelRow := db.rows.find? fun row => row.id = id

def ChannelDB.updateRow (db : ChannelDB) (id : ℕ) (f : ChannelRow → ChannelRow)
    (hf : ∀ row, (f row).id = row.id) : ChannelDB :=
  { db with
    rows := db.rows.map fun row => if row.id = id then f row else row
    nodup := by
      have hids : (db.rows.map fun row => if row.id = id then f row else row).map (fun row => row.id) =
          db.rows.map fun row => row.id := by
        rw [List.map_map]
        refine List.map_congr_left fun row _ => ?_
        by_cases hid : row.id = id
        · simp only [Function.comp, if_pos hid, hf]
        · simp only [Function.comp, if_neg hid]
      rw [hids]
      exact db.nodup }

def ChannelRow.groups (row : ChannelRow) : List String := splitText ',' row.group

def ChannelRow.modelNames (row : ChannelRow) : List String := splitText ',' row.models

/-- The key under which `AddAbilities` remembers what it has. -/
def abilityKey (pair : String × String) : String := pair.1 ++ "|" ++ pair.2

def dedupPairs : List String → List (String × String) → List (String × String)
  | _, [] => []
  | seen, pair :: rest =>
    if seen.contains (abilityKey pair) then dedupPairs seen rest
    else pair :: dedupPairs (abilityKey pair :: seen) rest

def ChannelRow.pairs (row : ChannelRow) : List (String × String) :=
  row.modelNames.flatMap fun model => row.groups.map fun group => (group, model)

def ChannelRow.toAbilities (row : ChannelRow) : List Ability :=
  (dedupPairs [] row.pairs).map fun pair =>
    ⟨pair.1, pair.2, row.id, row.status = channelStatusEnabled, row.priority, row.weight⟩

structure ChannelCache where
  group2model2channels : String → String → List ℕ
  channelsIDM : ℕ → Option ChannelRow
  channelsIDM_id : ∀ id row, channelsIDM id = some row → row.id = id

/-- `newGroup2model2channels`: the outer map may have no inner map for a group. -/
abbrev ChannelIndex := String → Option (String → List ℕ)

/-- One more channel under a group and a model; `none` when there is no inner map to assign to. -/
def ChannelIndex.append (index : ChannelIndex) (group model : String) (id : ℕ) : Option ChannelIndex :=
  (index group).map fun inner => Function.update index group (some (Function.update inner model (inner model ++ [id])))

def ChannelIndex.addModels (id : ℕ) (models : List String) (index : ChannelIndex) (group : String) :
    Option ChannelIndex :=
  models.foldlM (fun index model => index.append group model id) index

def ChannelIndex.addRow (index : ChannelIndex) (row : ChannelRow) : Option ChannelIndex :=
  if row.status = channelStatusEnabled then row.groups.foldlM (ChannelIndex.addModels row.id row.modelNames) index
  else some index

/-- The outer map, with an empty inner map for every group of the abilities. -/
def ChannelIndex.ofAbilities (abilities : List Ability) : ChannelIndex :=
  fun group => if group ∈ abilities.map Ability.group then some fun _ => [] else none

/-- The ids of a list by descending priority. The source sorts with `sort.Slice`, which may leave
channels of one priority in any order. -/
def sortByPriority (row : ℕ → Option ChannelRow) (ids : List ℕ) : List ℕ :=
  ids.insertionSort fun i j => ((row j).elim 0 fun r => r.priority) ≤ ((row i).elim 0 fun r => r.priority)

section
variable (decode : String → Option (List String))

/-- A row as it is cached: with its keys taken apart, and with the polling index of the copy that was
cached before. -/
def cacheRow (old : Option ChannelRow) (row : ChannelRow) : ChannelRow :=
  if row.channelInfo.isMultiKey then
    let row := { row with keys := getKeys decode row }
    match row.channelInfo.multiKeyMode, old with
    | .polling, some oldRow =>
      if oldRow.channelInfo.isMultiKey && decide (oldRow.channelInfo.multiKeyMode = .polling) then
        row.withPollingIndex oldRow.channelInfo.multiKeyPollingIndex
      else row
    | _, _ => row
  else row

theorem cacheRow_toChannel (old : Option ChannelRow) (row : ChannelRow) :
    (cacheRow decode old row).toChannel = row.toChannel := by
  unfold cacheRow ChannelRow.withPollingIndex
  dsimp only
  repeat' split
  all_goals rfl

/-- `InitChannelCache` from what it reads of the two tables; `none` when it panics. -/
def initChannelCache (old : ChannelCache) (rows : List ChannelRow) (abilities : List Ability) : Option ChannelCache :=
  -- a later row with the same id would replace an earlier one
  let byId id := rows.reverse.find? fun row => row.id = id
  (rows.foldlM ChannelIndex.addRow (.ofAbilities abilities)).map fun index =>
    { group2model2channels := fun group model => sortByPriority byId ((index group).elim [] fun inner => inner model)
      channelsIDM := fun id => (byId id).map (cacheRow decode (old.channelsIDM id))
      channelsIDM_id := by
        intro id row h
        obtain ⟨stored, hfind, rfl⟩ := Option.map_eq_some_iff.1 h
        rw [cacheRow_toChannel]
        simpa using List.find?_some hfind }

end

def ChannelCache.modifyRow (cache : ChannelCache) (id : ℕ) (f : ChannelRow → ChannelRow)
    (hf : ∀ row, (f row).id = row.id) : ChannelCache where
  group2model2channels := cache.group2model2channels
  channelsIDM := Function.update cache.channelsIDM id ((cache.channelsIDM id).map f)
  channelsIDM_id := by
    intro i row h
    by_cases hi : i = id
    · subst hi
      rw [Function.update_self] at h
      obtain ⟨stored, hstored, rfl⟩ := Option.map_eq_some_iff.1 h
      exact (hf stored).trans (cache.channelsIDM_id i stored hstored)
    · rw [Function.update_of_ne hi] at h
      exact cache.channelsIDM_id i row h

/-- In each list the first place of the id is cut out. -/
def cacheUpdateChannelStatus (cache : ChannelCache) (id : ℕ) (status : ℤ) : ChannelCache :=
  { cache.modifyRow id (fun row => { row with status := status }) fun _ => rfl with
    group2model2channels :=
      if status = channelStatusEnabled then cache.group2model2channels
      else fun group model => (cache.group2model2channels group model).erase id }

def ChannelCache.table (cache : ChannelCache) (memoryCacheEnabled : Bool)
    (supportsPath : ℕ → String → String → Bool) (abilities : List Ability) : ChannelTable where
  memoryCacheEnabled := memoryCacheEnabled
  group2model2channels := cache.group2model2channels
  channelsIDM id := (cache.channelsIDM id).map ChannelRow.toChannel
  channelsIDM_id := by
    intro id ch h
    obtain ⟨row, hrow, rfl⟩ := Option.map_eq_some_iff.1 h
    exact cache.channelsIDM_id id row hrow
  supportsPath := supportsPath
  formatMatchingModelName := formatMatchingModelName
  abilities := abilities

def ChannelDB.table (db : ChannelDB) (supportsPath : ℕ → String → String → Bool) : ChannelTable where
  memoryCacheEnabled := false
  group2model2channels := fun _ _ => []
  channelsIDM id := (db.row id).map ChannelRow.toChannel
  channelsIDM_id := by
    intro id ch h
    obtain ⟨row, hrow, rfl⟩ := Option.map_eq_some_iff.1 h
    simpa using List.find?_some hrow
  supportsPath := supportsPath
  formatMatchingModelName := formatMatchingModelName
  abilities := db.abilities

structure ChannelStore where
  memoryCacheEnabled : Bool
  cache : ChannelCache
  db : ChannelDB

structure StatusEnv where
  cacheNow : ℤ := 0
  now : ℤ := 0
  rowErr : Bool := false
  /-- `saveStatusState` fails -/
  saveErr : Bool := false
  /-- `UpdateAbilityStatus` fails -/
  abilityErr : Bool := false

section
variable (decode : String → Option (List String))

theorem handlerMultiKeyUpdate_toChannel (ch : ChannelRow) (change : StatusChange) (now : ℤ) :
    (handlerMultiKeyUpdate decode ch change now).toChannel = ch.toChannel := by
  unfold handlerMultiKeyUpdate ChannelRow.withStatus
  dsimp only
  repeat' split
  all_goals rfl

/-- `UpdateChannelStatus` in the cache; `none` when it returns there. -/
def updateCachedStatus (env : StatusEnv) (cache : ChannelCache) (id : ℕ) (change : StatusChange) :
    Option ChannelCache :=
  match cache.channelsIDM id with
  | none => none
  | some row =>
    if row.channelInfo.isMultiKey then
      let status := (handlerMultiKeyUpdate decode row change env.cacheNow).status
      let cache := cache.modifyRow id (fun row => handlerMultiKeyUpdate decode row change env.cacheNow)
        fun row => congrArg Channel.id (handlerMultiKeyUpdate_toChannel decode row change env.cacheNow)
      some (if row.status ≠ status then cacheUpdateChannelStatus cache id status else cache)
    else if row.status = change.status then none
    else some (cacheUpdateChannelStatus cache id change.status)

def saveStatusState (db : ChannelDB) (row : ChannelRow) : ChannelDB :=
  db.updateRow row.id
    (fun stored => { stored with
      status := row.status
      otherInfo := row.otherInfo
      channelInfo := if row.channelInfo.isMultiKey then row.channelInfo else stored.channelInfo })
    fun _ => rfl

def updateAbilityStatus (db : ChannelDB) (id : ℕ) (enabled : Bool) : ChannelDB :=
  { db with abilities := db.abilities.map fun a => if a.channelId = id then { a with enabled := enabled } else a }

/-- `UpdateChannelStatus` in the database. The abilities are changed last, to what was asked for. -/
def updateStoredStatus (env : StatusEnv) (db : ChannelDB) (id : ℕ) (change : StatusChange) : ChannelDB × Bool :=
  match if env.rowErr then none else db.row id with
  | none => (db, false)
  | some row =>
    if row.status = change.status then (db, false)
    else
      let updated :=
        if row.channelInfo.isMultiKey then handlerMultiKeyUpdate decode row change env.now
        else row.withStatus change.status change.reason env.now
      let failed := env.saveErr || decide (row.id = 0)
      let db := if failed then db else saveStatusState db updated
      let changed := !row.channelInfo.isMultiKey || decide (row.status ≠ updated.status)
      (if changed && !env.abilityErr then updateAbilityStatus db id (change.status = channelStatusEnabled) else db,
        !failed)

def updateChannelStatus (env : StatusEnv) (st : ChannelStore) (id : ℕ) (change : StatusChange) : ChannelStore × Bool :=
  if st.memoryCacheEnabled then
    match updateCachedStatus decode env st.cache id change with
    | none => (st, false)
    | some cache =>
      let stored := updateStoredStatus decode env st.db id change
      ({ st with cache := cache, db := stored.1 }, stored.2)
  else
    let stored := updateStoredStatus decode env st.db id change
    ({ st with db := stored.1 }, stored.2)

end

end NewApi
