import NewApi.Proof.MultiKey

/-!
# The cached status and the stored one

`UpdateChannelStatus` changes the cached copy and the row one after the other. With several keys the copy is changed
in any case, the row only if the status of the channel is not the one asked for. So the two come apart when a key is
changed and the channel as a whole has the status already.
-/

namespace NewApi

open Option

variable {decode : String → Option (List String)} {row : ChannelRow} {db : ChannelDB} {id : ℕ}
  {statusList : ℕ → Option ℤ}

structure CopyOf (decode : String → Option (List String)) (cached row : ChannelRow) : Prop where
  same : cached = { row with keys := cached.keys }
  keys : getKeys decode cached = getKeys decode row

theorem row_id (h : db.row id = some row) : row.id = id := by simpa using List.find?_some h

theorem row_updateRow_map (db : ChannelDB) (id other : ℕ) (f : ChannelRow → ChannelRow)
    (hf : ∀ row, (f row).id = row.id) :
    (db.updateRow id f hf).row other = (db.row other).map fun row => if row.id = id then f row else row := by
  change List.find? _ (db.rows.map _) = _
  rw [List.find?_map]
  have hsame : ((fun row : ChannelRow => decide (row.id = other)) ∘
      fun row => if row.id = id then f row else row) = fun row : ChannelRow => decide (row.id = other) := by
    funext row
    by_cases hid : row.id = id <;> simp [hid, hf]
  rw [hsame]
  rfl

theorem row_updateRow (db : ChannelDB) (id : ℕ) (f : ChannelRow → ChannelRow) (hf : ∀ row, (f row).id = row.id) :
    (db.updateRow id f hf).row id = (db.row id).map f := by
  rw [row_updateRow_map]
  refine map_congr fun row hrow => ?_
  rw [if_pos (row_id hrow)]

theorem row_updateRow_ne (db : ChannelDB) {id other : ℕ} (f : ChannelRow → ChannelRow)
    (hf : ∀ row, (f row).id = row.id) (hne : other ≠ id) : (db.updateRow id f hf).row other = db.row other := by
  rw [row_updateRow_map]
  refine (map_congr fun row hrow => ?_).trans map_id'
  rw [row_id hrow, if_neg hne]

/-- The key has the status that is asked for, and the channel would keep its own. -/
def Settled (keys : List String) (statusList : ℕ → Option ℤ) (change : StatusChange) : Prop :=
  ∀ i, keyIndex keys change.usingKey = some i →
    statusList i = (if change.status = channelStatusEnabled then none else some change.status) ∧
      (change.status = channelStatusAutoDisabled ∨ hasEnabledMultiKey keys statusList = true)

theorem setKeyStatus_eq_iff {i : ℕ} {status : ℤ} : setKeyStatus statusList i status = statusList ↔
      statusList i = if status = channelStatusEnabled then none else some status := by
  unfold setKeyStatus
  rw [Function.update_eq_self_iff, eq_comm]

theorem keyUpdate_eq_iff (keys : List String) (statusList : ℕ → Option ℤ) (change : StatusChange) :
    keyUpdate keys change.status statusList change = (change.status, statusList) ↔ Settled keys statusList change := by
  unfold keyUpdate Settled
  by_cases hempty : keys = []
  · subst hempty
    simp [keyIndex]
  rw [if_neg hempty]
  cases hindex : keyIndex keys change.usingKey with
  | none => simp
  | some i =>
    simp only [Prod.mk.injEq, some.injEq, forall_eq']
    rw [setKeyStatus_eq_iff, and_comm]
    refine and_congr_right fun hset => ?_
    rw [setKeyStatus_eq_iff.2 hset]
    cases henabled : hasEnabledMultiKey keys statusList with
    | false => simp [eq_comm]
    | true =>
      simp only [Bool.not_true, Bool.false_eq_true, if_false, or_true, iff_true]
      split_ifs with hstatus
      · exact hstatus.symm
      · rfl

theorem keyUpdate_enabled {keys : List String} {status : ℤ} {change : StatusChange}
    (h : (keyUpdate keys status statusList change).1 ≠ status) :
    (keyUpdate keys status statusList change).1 = channelStatusEnabled ↔ change.status = channelStatusEnabled := by
  unfold keyUpdate at h ⊢
  by_cases hempty : keys = []
  · simp [if_pos hempty]
  simp only [if_neg hempty] at h ⊢
  cases hindex : keyIndex keys change.usingKey with
  | none =>
    rw [hindex] at h
    dsimp only at h ⊢
    split_ifs at h with hkey
    · exact absurd rfl h
    · rw [if_neg hkey]
  | some i =>
    rw [hindex] at h
    dsimp only at h ⊢
    cases henabled : hasEnabledMultiKey keys (setKeyStatus statusList i change.status) with
    | true =>
      rw [henabled] at h
      by_cases hstatus : change.status = channelStatusEnabled
      · simp [hstatus]
      · rw [if_neg hstatus] at h
        exact absurd rfl h
    | false =>
      -- no key is enabled, so the one that was named is not enabled either
      simp only [Bool.not_false, if_true]
      constructor
      · intro habsurd
        exact absurd habsurd (by decide)
      intro hstatus
      have hi : i < keys.length := (List.getElem?_eq_some_iff.1 (keyIndex_spec hindex).1).1
      have hany : hasEnabledMultiKey keys (setKeyStatus statusList i change.status) = true := by
        unfold hasEnabledMultiKey
        rw [List.any_eq_true]
        refine ⟨i, List.mem_range.2 hi, ?_⟩
        rw [keyStatus_set_self, hstatus]
        simp
      rw [henabled] at hany
      cases hany

def StatusAgrees (st : ChannelStore) (id : ℕ) : Prop :=
  ∃ cached row, st.cache.channelsIDM id = some cached ∧ st.db.row id = some row ∧ cached.status = row.status ∧
    cached.channelInfo.multiKeyStatusList = row.channelInfo.multiKeyStatusList

def AbilitiesAgree (db : ChannelDB) (id : ℕ) : Prop :=
  ∀ row, db.row id = some row → ∀ a ∈ db.abilities, a.channelId = id →
    (a.enabled = true ↔ row.status = channelStatusEnabled)

def StatusEnv.Calm (env : StatusEnv) : Prop := env.rowErr = false ∧ env.saveErr = false ∧ env.abilityErr = false

section
variable (decode : String → Option (List String)) {env : StatusEnv}

def storedUpdate (row : ChannelRow) (change : StatusChange) : ℤ × (ℕ → Option ℤ) :=
  if row.status = change.status then (row.status, row.channelInfo.multiKeyStatusList)
  else if row.channelInfo.isMultiKey then
    keyUpdate (getKeys decode row) row.status row.channelInfo.multiKeyStatusList change
  else (change.status, row.channelInfo.multiKeyStatusList)

def changedRow (env : StatusEnv) (change : StatusChange) (row : ChannelRow) : ChannelRow :=
  if row.channelInfo.isMultiKey then handlerMultiKeyUpdate decode row change env.now
  else row.withStatus change.status change.reason env.now

def savedChange (env : StatusEnv) (db : ChannelDB) (change : StatusChange) (row : ChannelRow) : ChannelDB :=
  if env.saveErr || decide (row.id = 0) then db else saveStatusState db (changedRow decode env change row)

def abilitiesToChange (env : StatusEnv) (change : StatusChange) (row : ChannelRow) : Bool :=
  !row.channelInfo.isMultiKey || decide (row.status ≠ (changedRow decode env change row).status)

theorem updateStoredStatus_found (change : StatusChange) (hrowErr : env.rowErr = false) (hrow : db.row id = some row) :
    (updateStoredStatus decode env db id change).1 =
      if row.status = change.status then db
      else if abilitiesToChange decode env change row && !env.abilityErr then
        updateAbilityStatus (savedChange decode env db change row) id (change.status = channelStatusEnabled)
      else savedChange decode env db change row := by
  unfold updateStoredStatus
  rw [hrowErr, hrow]
  by_cases hsame : row.status = change.status
  · simp [if_pos hsame]
  · simp only [Bool.false_eq_true, if_false, if_neg hsame]
    rfl

section
variable (env : StatusEnv) (change : StatusChange) (row : ChannelRow)

theorem changedRow_id : (changedRow decode env change row).id = row.id := by
  unfold changedRow
  split
  · rw [handlerMultiKeyUpdate_toChannel]
  · rfl

theorem changedRow_isMultiKey :
    (changedRow decode env change row).channelInfo.isMultiKey = row.channelInfo.isMultiKey := by
  unfold changedRow
  split
  · exact (handlerMultiKeyUpdate_spec decode row change env.now).1.isMultiKey
  · rfl

theorem changedRow_value (hne : row.status ≠ change.status) :
    ((changedRow decode env change row).status, (changedRow decode env change row).channelInfo.multiKeyStatusList) =
      storedUpdate decode row change := by
  unfold changedRow storedUpdate
  rw [if_neg hne]
  split_ifs with hmulti
  · exact (handlerMultiKeyUpdate_spec decode row change env.now).2
  · rfl

theorem changedRow_enabled (hne : row.status ≠ change.status)
    (hchange : abilitiesToChange decode env change row = true) :
    (changedRow decode env change row).status = channelStatusEnabled ↔ change.status = channelStatusEnabled := by
  have hstatus : (changedRow decode env change row).status = (storedUpdate decode row change).1 :=
    congrArg Prod.fst (changedRow_value decode env change row hne)
  unfold abilitiesToChange at hchange
  rw [hstatus] at hchange ⊢
  unfold storedUpdate at hchange ⊢
  rw [if_neg hne] at hchange ⊢
  by_cases hmulti : row.channelInfo.isMultiKey = true
  · simp only [if_pos hmulti] at hchange ⊢
    simp only [hmulti, Bool.not_true, Bool.false_or, decide_eq_true_eq] at hchange
    exact keyUpdate_enabled (Ne.symm hchange)
  · rw [if_neg hmulti]

end

theorem row_savedChange (change : StatusChange) (hrow : db.row id = some row) (hid : id ≠ 0)
    (hsaveErr : env.saveErr = false) :
    ∃ saved, (savedChange decode env db change row).row id = some saved ∧
      saved.status = (changedRow decode env change row).status ∧
      saved.channelInfo.multiKeyStatusList = (changedRow decode env change row).channelInfo.multiKeyStatusList := by
  have hrowId := row_id hrow
  have hok : ¬ (env.saveErr || decide (row.id = 0)) = true := by simp [hsaveErr, hrowId, hid]
  unfold savedChange
  rw [if_neg hok]
  unfold saveStatusState
  rw [changedRow_id, hrowId, row_updateRow, hrow, map_some]
  refine ⟨_, rfl, rfl, ?_⟩
  dsimp only
  rw [changedRow_isMultiKey]
  split
  · rfl
  -- the column is not written, and the row was not changed in it
  rename_i hmulti
  unfold changedRow
  rw [if_neg hmulti]
  rfl

theorem updateStoredStatus_spec (change : StatusChange) (hrow : db.row id = some row) (hid : id ≠ 0) (henv : env.Calm) :
    ∃ row', (updateStoredStatus decode env db id change).1.row id = some row' ∧
      (row'.status, row'.channelInfo.multiKeyStatusList) = storedUpdate decode row change ∧
      (AbilitiesAgree db id → AbilitiesAgree (updateStoredStatus decode env db id change).1 id) := by
  obtain ⟨hrowErr, hsaveErr, habilityErr⟩ := henv
  rw [updateStoredStatus_found decode change hrowErr hrow]
  by_cases hsame : row.status = change.status
  · rw [if_pos hsame]
    unfold storedUpdate
    rw [if_pos hsame]
    exact ⟨row, hrow, rfl, fun h => h⟩
  rw [if_neg hsame, habilityErr, Bool.not_false, Bool.and_true, ← changedRow_value decode env change row hsame]
  obtain ⟨saved, hsaved, hstatus, hlist⟩ := row_savedChange decode change hrow hid hsaveErr
  split_ifs with hdo
  · refine ⟨saved, hsaved, by rw [hstatus, hlist], fun _ row' hrow' a ha haid => ?_⟩
    obtain rfl := some.inj (hrow'.symm.trans hsaved)
    obtain ⟨b, -, rfl⟩ := List.mem_map.1 ha
    by_cases hb : b.channelId = id
    · rw [if_pos hb, hstatus, changedRow_enabled decode env change row hsame hdo, decide_eq_true_eq]
    · rw [if_neg hb] at haid
      exact absurd haid hb
  · refine ⟨saved, hsaved, by rw [hstatus, hlist], fun hagree row' hrow' a ha haid => ?_⟩
    obtain rfl : row' = saved := some.inj (hrow'.symm.trans hsaved)
    have hkept : row.status = (changedRow decode env change row).status := by
      unfold abilitiesToChange at hdo
      simp only [Bool.or_eq_true, not_or, decide_eq_true_eq, not_not] at hdo
      exact hdo.2
    have hability : a ∈ db.abilities := by
      unfold savedChange at ha
      split at ha
      · exact ha
      · exact ha
    rw [hstatus, ← hkept]
    exact hagree row hrow a hability haid

end

theorem statusAgrees_iff_eq {st : ChannelStore} {cached row : ChannelRow}
    (hcached : st.cache.channelsIDM id = some cached) (hrow : st.db.row id = some row) :
    StatusAgrees st id ↔ (cached.status, cached.channelInfo.multiKeyStatusList) =
      (row.status, row.channelInfo.multiKeyStatusList) := by
  rw [Prod.mk.injEq]
  constructor
  · rintro ⟨cached', row', hcached', hrow', h⟩
    rw [hcached] at hcached'
    rw [hrow] at hrow'
    rwa [some.inj hcached', some.inj hrow']
  · exact fun h => ⟨cached, row, hcached, hrow, h⟩

section
variable (decode : String → Option (List String)) (env : StatusEnv) {st : ChannelStore} {id : ℕ} {cached : ChannelRow}
  (change : StatusChange) (hmemory : st.memoryCacheEnabled = true) (hcached : st.cache.channelsIDM id = some cached)
include hmemory hcached

theorem updateChannelStatus_db_multi (hmulti : cached.channelInfo.isMultiKey = true) :
    (updateChannelStatus decode env st id change).1.db = (updateStoredStatus decode env st.db id change).1 := by
  obtain ⟨cache', hupdated, -⟩ := updateCachedStatus_multiKey decode env change hcached hmulti
  unfold updateChannelStatus
  rw [if_pos hmemory, hupdated]

theorem updateChannelStatus_single (hsingle : ¬ cached.channelInfo.isMultiKey = true) :
    (updateChannelStatus decode env st id change).1 =
      if cached.status = change.status then st
      else { st with
        cache := cacheUpdateChannelStatus st.cache id change.status
        db := (updateStoredStatus decode env st.db id change).1 } := by
  unfold updateChannelStatus updateCachedStatus
  rw [if_pos hmemory, hcached]
  by_cases hsame : cached.status = change.status
  · simp [if_neg hsingle, if_pos hsame]
  · simp [if_neg hsingle, if_neg hsame]

end

/-- **When the cache and the row agree after a change** of a channel whose copy was equal to its row. -/
theorem status_agrees_iff (decode : String → Option (List String)) (env : StatusEnv) (st : ChannelStore) (id : ℕ)
    (change : StatusChange) {row cached : ChannelRow} (hmemory : st.memoryCacheEnabled = true)
    (hrow : st.db.row id = some row) (hcached : st.cache.channelsIDM id = some cached)
    (hcopy : CopyOf decode cached row) (hid : id ≠ 0) (henv : env.Calm) :
    (StatusAgrees (updateChannelStatus decode env st id change).1 id ↔
      (row.channelInfo.isMultiKey = true → row.status = change.status →
        Settled (getKeys decode row) row.channelInfo.multiKeyStatusList change)) ∧
    (AbilitiesAgree st.db id → AbilitiesAgree (updateChannelStatus decode env st id change).1.db id) := by
  obtain ⟨row', hrow', hvalue, habilities⟩ := updateStoredStatus_spec decode change hrow hid henv
  have hstatus : cached.status = row.status := by rw [hcopy.same]
  have hinfo : cached.channelInfo = row.channelInfo := by rw [hcopy.same]
  by_cases hmulti : row.channelInfo.isMultiKey = true
  · have hmultiCached : cached.channelInfo.isMultiKey = true := by rw [hinfo, hmulti]
    have hcache := updateChannelStatus_cached decode env change hmemory hcached hmultiCached
    have hdb := updateChannelStatus_db_multi decode env change hmemory hcached hmultiCached
    -- the cached copy is changed in any case, the row if its status is another
    have hspec := (handlerMultiKeyUpdate_spec decode cached change env.cacheNow).2
    rw [hcopy.keys, hstatus, hinfo] at hspec
    rw [statusAgrees_iff_eq hcache (by rw [hdb, hrow']), hspec, hvalue, hdb]
    refine ⟨?_, habilities⟩
    unfold storedUpdate
    by_cases hsame : row.status = change.status
    · rw [if_pos hsame, hsame, keyUpdate_eq_iff]
      exact ⟨fun h _ _ => h, fun h => h hmulti rfl⟩
    · rw [if_neg hsame, if_pos hmulti]
      exact ⟨fun _ _ h => absurd h hsame, fun _ => rfl⟩
  · -- a single key: the status is the channel's
    have hsingle : ¬ cached.channelInfo.isMultiKey = true := by rwa [hinfo]
    rw [updateChannelStatus_single decode env change hmemory hcached hsingle]
    split_ifs with hsame
    · refine ⟨⟨fun _ h => absurd h hmulti, fun _ => ?_⟩, fun h => h⟩
      exact ⟨cached, row, hcached, hrow, hstatus, by rw [hinfo]⟩
    refine ⟨⟨fun _ h => absurd h hmulti, fun _ => ?_⟩, habilities⟩
    rw [statusAgrees_iff_eq (cacheUpdateChannelStatus_self change.status hcached) hrow', hvalue]
    unfold storedUpdate
    rw [← hstatus, if_neg hsame, if_neg hmulti, ← hinfo]

theorem status_agrees_disabled :
    StatusAgrees (updateChannelStatus noArrays {} (storeOf (keysRow "a\nb" .random)) 2
        ⟨"a", channelStatusAutoDisabled, "rejected"⟩).1 2 ∧
      AbilitiesAgree (updateChannelStatus noArrays {} (storeOf (keysRow "a\nb" .random)) 2
        ⟨"a", channelStatusAutoDisabled, "rejected"⟩).1.db 2 := by
  obtain ⟨hstatus, habilities⟩ := status_agrees_iff noArrays {} (storeOf (keysRow "a\nb" .random)) 2
    ⟨"a", channelStatusAutoDisabled, "rejected"⟩ rfl rfl rfl ⟨rfl, rfl⟩ (by decide) ⟨rfl, rfl, rfl⟩
  refine ⟨hstatus.2 ?_, habilities ?_⟩
  · intro _ hsame
    exact absurd hsame (by decide)
  intro row hrow a ha _
  obtain rfl := some.inj hrow
  have hall : ∀ b ∈ (keysRow "a\nb" .random).toAbilities, b.enabled = true := by decide
  exact iff_of_true (hall a ha) rfl

def keyOffRow : ChannelRow :=
  { keysRow "a\nb" .random with
    channelInfo := { (keysRow "a\nb" .random).channelInfo with
      multiKeyStatusList := fun i => if i = 0 then some channelStatusAutoDisabled else none } }

/-- The key is enabled again in the cache only: the row stays as it is. -/
theorem enabled_in_cache_only :
    CopyOf noArrays keyOffRow keyOffRow ∧ ((updateChannelStatus noArrays {} (storeOf keyOffRow) 2
          ⟨"a", channelStatusEnabled, ""⟩).1.cache.channelsIDM 2).map
        (fun cached => cached.channelInfo.multiKeyStatusList 0) = some none ∧
      ((updateChannelStatus noArrays {} (storeOf keyOffRow) 2 ⟨"a", channelStatusEnabled, ""⟩).1.db.row 2).map
        (fun row => row.channelInfo.multiKeyStatusList 0) = some (some channelStatusAutoDisabled) :=
  ⟨⟨rfl, rfl⟩, by decide +kernel, by decide +kernel⟩

end NewApi
