import NewApi.Proof.ChannelCache
import NewApi.Spec.KeyRequests

/-!
# The status of a key

Callers name a key by its text, and its status is kept under its place. `keyUpdate` says what a change does
to the status of a channel and to those of its keys, in the cache and in the row alike: only the first
place of the key is marked.
-/

namespace NewApi

open Trace Function List Option

variable {decode : String → Option (List String)} {i : ℕ} {statusList : ℕ → Option ℤ} {row : ChannelRow}
  {cache : ChannelCache} {id : ℕ} {f : ChannelRow → ChannelRow} {id other : ℕ}

def keyIndex (keys : List String) (key : String) : Option ℕ := keys.findIdx? fun k => k = key

def setKeyStatus (statusList : ℕ → Option ℤ) (i : ℕ) (status : ℤ) : ℕ → Option ℤ :=
  Function.update statusList i (if status = channelStatusEnabled then none else some status)

def keyUpdate (keys : List String) (status : ℤ) (statusList : ℕ → Option ℤ) (change : StatusChange) :
    ℤ × (ℕ → Option ℤ) :=
  if keys = [] then (change.status, statusList)
  else match keyIndex keys change.usingKey with
    | none => (if change.usingKey ≠ "" then status else change.status, statusList)
    | some i =>
      (if !hasEnabledMultiKey keys (setKeyStatus statusList i change.status) then channelStatusAutoDisabled
        else if change.status = channelStatusEnabled then channelStatusEnabled else status,
        setKeyStatus statusList i change.status)

theorem setKey_statusList (info : ChannelInfo) (i : ℕ) (change : StatusChange) (now : ℤ) :
    (info.setKey i change now).multiKeyStatusList = setKeyStatus info.multiKeyStatusList i change.status := by
  unfold ChannelInfo.setKey setKeyStatus
  split_ifs with henabled
  · rfl
  · rfl

structure SameKeys (decode : String → Option (List String)) (row row' : ChannelRow) : Prop where
  isMultiKey : row'.channelInfo.isMultiKey = row.channelInfo.isMultiKey
  keys : getKeys decode row' = getKeys decode row

theorem setKey_isMultiKey (info : ChannelInfo) (i : ℕ) (change : StatusChange) (now : ℤ) :
    (info.setKey i change now).isMultiKey = info.isMultiKey := by
  unfold ChannelInfo.setKey
  split <;> rfl

theorem handlerMultiKeyUpdate_spec (decode : String → Option (List String)) (row : ChannelRow)
    (change : StatusChange) (now : ℤ) :
    SameKeys decode row (handlerMultiKeyUpdate decode row change now) ∧
      ((handlerMultiKeyUpdate decode row change now).status,
        (handlerMultiKeyUpdate decode row change now).channelInfo.multiKeyStatusList) =
      keyUpdate (getKeys decode row) row.status row.channelInfo.multiKeyStatusList change := by
  unfold handlerMultiKeyUpdate keyUpdate keyIndex
  dsimp only
  by_cases hempty : getKeys decode row = []
  · simp only [if_pos hempty]
    exact ⟨⟨rfl, rfl⟩, trivial⟩
  simp only [if_neg hempty]
  cases (getKeys decode row).findIdx? fun k => k = change.usingKey with
  | none =>
    dsimp only
    split
    · exact ⟨⟨rfl, rfl⟩, rfl⟩
    · exact ⟨⟨rfl, rfl⟩, rfl⟩
  | some =>
    simp only [setKey_statusList]
    split_ifs
    · exact ⟨⟨setKey_isMultiKey _ _ _ _, rfl⟩, by simp [ChannelRow.withStatus, setKey_statusList]⟩
    · exact ⟨⟨setKey_isMultiKey _ _ _ _, rfl⟩, by simp [setKey_statusList]⟩
    · exact ⟨⟨setKey_isMultiKey _ _ _ _, rfl⟩, by simp [setKey_statusList]⟩

theorem keyIndex_spec {keys : List String} {key : String} (h : keyIndex keys key = some i) :
    keys[i]? = some key ∧ ∀ j < i, keys[j]? ≠ some key := by
  unfold keyIndex at h
  rw [findIdx?_eq_some_iff_getElem] at h
  obtain ⟨hi, hkey, hbefore⟩ := h
  refine ⟨by simpa [getElem?_eq_getElem hi] using hkey, fun j hj hjkey => ?_⟩
  have hno := hbefore j hj
  rw [getElem?_eq_getElem (hj.trans hi)] at hjkey
  simp [some.inj hjkey] at hno

theorem mem_enabledIdx {keys : List String} :
    i ∈ enabledIdx keys statusList ↔ i < keys.length ∧ keyStatus statusList i = channelStatusEnabled := by
  unfold enabledIdx
  rw [mem_filter, mem_range, decide_eq_true_eq]

theorem pollFrom_enabled {size start i : ℕ} (h : pollFrom statusList size start = some i) :
    i < size ∧ keyStatus statusList i = channelStatusEnabled := by
  refine ⟨?_, by simpa using find?_some h⟩
  obtain ⟨n, hn, rfl⟩ := mem_map.1 (mem_of_find?_eq_some h)
  exact Nat.mod_lt _ (by have := mem_range.1 hn; omega)

/-- **Only an enabled place is handed out**, in every mode. -/
theorem getNextEnabledKey_ok {polled : Option ChannelInfo} {rand : ℕ} {key : String}
    (hmulti : row.channelInfo.isMultiKey = true)
    (h : (getNextEnabledKey decode polled rand row).result = .ok (key, i)) :
    (getKeys decode row)[i]? = some key ∧ keyStatus row.channelInfo.multiKeyStatusList i = channelStatusEnabled := by
  have hplace : ∀ idx, idx < (getKeys decode row).length ∧
        keyStatus row.channelInfo.multiKeyStatusList idx = channelStatusEnabled →
      (Except.ok ((getKeys decode row).getD idx "", idx) : Except KeyError (String × ℕ)) = .ok (key, i) →
      (getKeys decode row)[i]? = some key ∧ keyStatus row.channelInfo.multiKeyStatusList i = channelStatusEnabled := by
    intro idx hidx heq
    cases heq
    refine ⟨?_, hidx.2⟩
    rw [getD_eq_getElem?_getD, getElem?_eq_getElem hidx.1, getD_some]
  unfold getNextEnabledKey at h
  simp only [hmulti, Bool.not_true, Bool.false_eq_true, if_false] at h
  split at h
  · cases h
  split at h
  · cases h
  rename_i first rest henabled
  have hfirst : ∀ idx ∈ first :: rest, idx < (getKeys decode row).length ∧
      keyStatus row.channelInfo.multiKeyStatusList idx = channelStatusEnabled := by
    intro idx hidx
    rw [← henabled] at hidx
    exact mem_enabledIdx.1 hidx
  split at h
  · refine hplace _ (hfirst _ ?_) h
    have hlt : rand % (rest.length + 1) < (first :: rest).length := Nat.mod_lt _ (Nat.succ_pos _)
    rw [getD_eq_getElem?_getD, getElem?_eq_getElem hlt, getD_some]
    exact getElem_mem hlt
  · split at h
    · cases h
    split at h
    · rename_i idx hpoll
      exact hplace _ (pollFrom_enabled hpoll) h
    · exact hplace _ (hfirst _ mem_cons_self) h
  · exact hplace _ (hfirst _ mem_cons_self) h

theorem getNextEnabledKey_channel (decode : String → Option (List String)) (polled : Option ChannelInfo)
    (rand : ℕ) (row : ChannelRow) :
    ∃ index, (getNextEnabledKey decode polled rand row).channel = row.withPollingIndex index := by
  unfold getNextEnabledKey
  dsimp only
  repeat' split
  all_goals exact ⟨_, rfl⟩

structure CachedKeys (decode : String → Option (List String)) (st : ChannelStore) (id : ℕ) (keys : List String)
    (statusList : ℕ → Option ℤ) : Prop where
  memory : st.memoryCacheEnabled = true
  cached : ∃ row, st.cache.channelsIDM id = some row ∧ row.channelInfo.isMultiKey = true ∧
    getKeys decode row = keys ∧ row.channelInfo.multiKeyStatusList = statusList

theorem modifyRow_self {hf : ∀ row, (f row).id = row.id} (h : cache.channelsIDM id = some row) :
    (cache.modifyRow id f hf).channelsIDM id = some (f row) := by
  change update cache.channelsIDM id ((cache.channelsIDM id).map f) id = _
  rw [update_self, h, map_some]

theorem modifyRow_ne {hf : ∀ row, (f row).id = row.id} (h : other ≠ id) :
    (cache.modifyRow id f hf).channelsIDM other = cache.channelsIDM other :=
  update_of_ne h _ _

theorem cacheUpdateChannelStatus_self (status : ℤ) (h : cache.channelsIDM id = some row) :
    (cacheUpdateChannelStatus cache id status).channelsIDM id = some { row with status := status } := by
  change update cache.channelsIDM id ((cache.channelsIDM id).map _) id = _
  rw [update_self, h, map_some]

theorem cacheUpdateChannelStatus_ne (status : ℤ) (h : other ≠ id) :
    (cacheUpdateChannelStatus cache id status).channelsIDM other = cache.channelsIDM other :=
  update_of_ne h _ _

theorem updateCachedStatus_ne {env : StatusEnv} {cache cache' : ChannelCache} {change : StatusChange}
    (h : updateCachedStatus decode env cache id change = some cache') (hne : other ≠ id) :
    cache'.channelsIDM other = cache.channelsIDM other := by
  unfold updateCachedStatus at h
  split at h
  · cases h
  split_ifs at h
  · cases h
    split
    · exact (cacheUpdateChannelStatus_ne _ hne).trans (modifyRow_ne hne)
    · exact modifyRow_ne hne
  · cases h
    exact cacheUpdateChannelStatus_ne _ hne

theorem updateCachedStatus_multiKey (decode : String → Option (List String)) (env : StatusEnv)
    (change : StatusChange) (hrow : cache.channelsIDM id = some row) (hmulti : row.channelInfo.isMultiKey = true) :
    ∃ cache', updateCachedStatus decode env cache id change = some cache' ∧
      cache'.channelsIDM id = some (handlerMultiKeyUpdate decode row change env.cacheNow) := by
  unfold updateCachedStatus
  rw [hrow]
  dsimp only
  rw [if_pos hmulti]
  refine ⟨_, rfl, ?_⟩
  split
  · exact cacheUpdateChannelStatus_self _ (modifyRow_self hrow)
  · exact modifyRow_self hrow

theorem updateChannelStatus_cache (decode : String → Option (List String)) (env : StatusEnv) (id : ℕ)
    (change : StatusChange) {st : ChannelStore} (hmemory : st.memoryCacheEnabled = true) :
    (updateChannelStatus decode env st id change).1.memoryCacheEnabled = true ∧
      (updateChannelStatus decode env st id change).1.cache =
        (updateCachedStatus decode env st.cache id change).getD st.cache := by
  unfold updateChannelStatus
  rw [if_pos hmemory]
  cases updateCachedStatus decode env st.cache id change with
  | none | some => exact ⟨hmemory, rfl⟩

theorem updateChannelStatus_cached (decode : String → Option (List String)) (env : StatusEnv) (change : StatusChange)
    {st : ChannelStore} (hmemory : st.memoryCacheEnabled = true)
    (hrow : st.cache.channelsIDM id = some row) (hmulti : row.channelInfo.isMultiKey = true) :
    (updateChannelStatus decode env st id change).1.cache.channelsIDM id =
      some (handlerMultiKeyUpdate decode row change env.cacheNow) := by
  obtain ⟨cache', hupdated, hrow'⟩ := updateCachedStatus_multiKey decode env change hrow hmulti
  rw [(updateChannelStatus_cache decode env id change hmemory).2, hupdated, getD_some, hrow']

def KeyEvent.sets (keys : List String) (id i : ℕ) (status : ℤ) : KeyEvent → Prop
  | .update id' change _ => id' = id ∧ keyIndex keys change.usingKey = some i ∧ change.status = status
  | .next _ _ _ _ => False

section
variable {st : ChannelStore} {id : ℕ} {keys : List String} {statusList : ℕ → Option ℤ}

section

variable (h : CachedKeys decode st id keys statusList)
include h

theorem cachedKeys_update (id' : ℕ) (change : StatusChange) (env : StatusEnv) :
    (∀ i status, ¬ (KeyEvent.update id' change env).sets keys id i status) ∧
        CachedKeys decode (updateChannelStatus decode env st id' change).1 id keys statusList ∨
      ∃ i status, (KeyEvent.update id' change env).sets keys id i status ∧
        CachedKeys decode (updateChannelStatus decode env st id' change).1 id keys
          (setKeyStatus statusList i status) := by
  obtain ⟨hmemory, row, hrow, hmulti, hkeys, hlist⟩ := h
  obtain ⟨hmemory', hcache⟩ := updateChannelStatus_cache decode env id' change hmemory
  by_cases hid : id' = id
  · subst hid
    have hrow' := updateChannelStatus_cached decode env change hmemory hrow hmulti
    obtain ⟨⟨hmulti', hkeys'⟩, hspec⟩ := handlerMultiKeyUpdate_spec decode row change env.cacheNow
    rw [hkeys, hlist] at hspec
    have hstored : ∀ statusList', (keyUpdate keys row.status statusList change).2 = statusList' →
        CachedKeys decode (updateChannelStatus decode env st id' change).1 id' keys statusList' := by
      intro statusList' heq
      refine ⟨hmemory', _, hrow', hmulti'.trans hmulti, hkeys'.trans hkeys, ?_⟩
      exact (congrArg Prod.snd hspec).trans heq
    cases hindex : keyIndex keys change.usingKey with
    | none =>
      refine .inl ⟨fun i status hsets => ?_, hstored statusList ?_⟩
      · have hsome := hsets.2.1
        rw [hindex] at hsome
        cases hsome
      unfold keyUpdate
      rw [hindex]
      split <;> rfl
    | some i =>
      refine .inr ⟨i, change.status, ⟨rfl, hindex, rfl⟩, hstored _ ?_⟩
      have hne : keys ≠ [] := by
        rintro rfl
        cases hindex
      unfold keyUpdate
      rw [if_neg hne, hindex]
  · refine .inl ⟨fun i status hsets => hid hsets.1, hmemory', row, ?_, hmulti, hkeys, hlist⟩
    rw [hcache]
    cases hupdated : updateCachedStatus decode env st.cache id' change with
    | none => exact hrow
    | some => exact (updateCachedStatus_ne hupdated (Ne.symm hid)).trans hrow

theorem cachedKeys_next {st' : ChannelStore} {id' rand : ℕ} {receiver : KeyReceiver}
    {result : Except KeyError (String × ℕ)} (hst : KeyStep decode st (.next id' receiver rand result) st') :
    CachedKeys decode st' id keys statusList ∧ ∀ key i, id' = id → receiver = .cached → result = .ok (key, i) →
      keys[i]? = some key ∧ keyStatus statusList i = channelStatusEnabled := by
  cases hst with
  | loaded => exact ⟨h, fun _ _ _ hcached => nomatch hcached⟩
  | @next _ _ row' _ cached handed =>
    obtain ⟨hmemory, row, hrow, hmulti, hkeys, hlist⟩ := h
    by_cases hid : id' = id
    · subst hid
      obtain rfl := some.inj (cached.symm.trans hrow)
      obtain ⟨index, hindex⟩ := getNextEnabledKey_channel decode (some row'.channelInfo) rand row'
      refine ⟨⟨hmemory, (nextCachedKey decode rand row').channel, ?_, ?_⟩, fun key i _ _ hresult => ?_⟩
      · rw [modifyRow_self hrow]
      · unfold nextCachedKey
        rw [hindex]
        exact ⟨hmulti, hkeys, hlist⟩
      obtain ⟨hkey, henabled⟩ := getNextEnabledKey_ok hmulti (handed.trans hresult)
      rw [hkeys] at hkey
      rw [hlist] at henabled
      exact ⟨hkey, henabled⟩
    · refine ⟨⟨hmemory, row, ?_, hmulti, hkeys, hlist⟩, fun _ _ hsame => absurd hsame hid⟩
      rw [modifyRow_ne (Ne.symm hid)]
      exact hrow

end

/-- **What a step can do to the keys of a cached channel**: change the status of one; what it hands out is enabled. -/
theorem cachedKeys_step {st' : ChannelStore} {e : KeyEvent} (h : CachedKeys decode st id keys statusList)
    (hst : KeyStep decode st e st') :
    ((∀ i status, ¬ e.sets keys id i status) ∧ CachedKeys decode st' id keys statusList ∨
      ∃ i status, e.sets keys id i status ∧ CachedKeys decode st' id keys (setKeyStatus statusList i status)) ∧
    ∀ rand key i, e = .next id .cached rand (.ok (key, i)) →
      keys[i]? = some key ∧ keyStatus statusList i = channelStatusEnabled := by
  cases e with
  | update id' change env =>
    cases hst
    exact ⟨cachedKeys_update h id' change env, fun rand key i he => nomatch he⟩
  | next =>
    obtain ⟨hkept, hhanded⟩ := cachedKeys_next h hst
    refine ⟨.inl ⟨fun _ _ hsets => hsets, hkept⟩, fun rand' key i he => ?_⟩
    obtain ⟨hid, hreceiver, -, hresult⟩ := KeyEvent.next.inj he
    exact hhanded key i hid hreceiver hresult

end

/-- A key that stands in the list again stands there disabled. -/
def RepeatsDisabled (keys : List String) (statusList : ℕ → Option ℤ) (key : String) : Prop :=
  ∀ i j, i < j → keys[i]? = some key → keys[j]? = some key → keyStatus statusList j ≠ channelStatusEnabled

def KeyDisabled (keys : List String) (statusList : ℕ → Option ℤ) (key : String) : Prop :=
  ∀ i, keys[i]? = some key → keyStatus statusList i ≠ channelStatusEnabled

theorem keyStatus_set_ne {i j : ℕ} (status : ℤ) (h : j ≠ i) :
    keyStatus (setKeyStatus statusList i status) j = keyStatus statusList j := by
  unfold keyStatus setKeyStatus
  rw [update_of_ne h]

theorem keyStatus_set_self {status : ℤ} : keyStatus (setKeyStatus statusList i status) i = status := by
  unfold keyStatus setKeyStatus
  rw [update_self]
  split_ifs with henabled
  · exact henabled.symm
  · rfl

variable {keys : List String} {statusList : ℕ → Option ℤ} {key other : String} {i : ℕ} {status : ℤ}

theorem RepeatsDisabled.set (h : RepeatsDisabled keys statusList key) (hindex : keyIndex keys other = some i) :
    RepeatsDisabled keys (setKeyStatus statusList i status) key := by
  intro i0 j hlt hi0 hj
  obtain ⟨hi, hfirst⟩ := keyIndex_spec hindex
  have hne : j ≠ i := by
    rintro rfl
    obtain rfl := some.inj (hj.symm.trans hi)
    exact hfirst i0 hlt hi0
  rw [keyStatus_set_ne status hne]
  exact h i0 j hlt hi0 hj

theorem KeyDisabled.set (h : KeyDisabled keys statusList key) (hne : other ≠ key)
    (hindex : keyIndex keys other = some i) : KeyDisabled keys (setKeyStatus statusList i status) key := by
  intro j hj
  have hji : j ≠ i := by
    rintro rfl
    exact hne (some.inj ((keyIndex_spec hindex).1.symm.trans hj))
  rw [keyStatus_set_ne status hji]
  exact h j hj

theorem RepeatsDisabled.disable (h : RepeatsDisabled keys statusList key) (hindex : keyIndex keys key = some i)
    (hstatus : status ≠ channelStatusEnabled) : KeyDisabled keys (setKeyStatus statusList i status) key := by
  intro j hj
  by_cases hji : j = i
  · subst hji
    rw [keyStatus_set_self]
    exact hstatus
  obtain ⟨hi, hfirst⟩ := keyIndex_spec hindex
  have hlt : i < j := by
    rcases Nat.lt_trichotomy i j with hlt | heq | hgt
    · exact hlt
    · exact absurd heq.symm hji
    · exact absurd hj (hfirst j hgt)
  rw [keyStatus_set_ne status hji]
  exact h i j hlt hi hj

def KeyEvent.names (id : ℕ) (key : String) : KeyEvent → Prop
  | .update id' change _ => id' = id ∧ change.usingKey = key
  | .next _ _ _ _ => False

/-- **A disabled key is not handed out** by the cached channel until a change names it again, if the later places of a
key that stands in the list twice were disabled at the start. -/
theorem disabled_key_kept_back (decode : String → Option (List String)) {st st' : ChannelStore} {id : ℕ}
    {row : ChannelRow} {key reason : String} {status : ℤ} {env : StatusEnv} {before after : List KeyEvent}
    (hmemory : st.memoryCacheEnabled = true) (hrow : st.cache.channelsIDM id = some row)
    (hmulti : row.channelInfo.isMultiKey = true) (hkey : key ∈ getKeys decode row)
    (hrepeats : RepeatsDisabled (getKeys decode row) row.channelInfo.multiKeyStatusList key)
    (hrun : Run (KeyStep decode) st (before ++ .update id ⟨key, status, reason⟩ env :: after) st')
    (hstatus : status ≠ channelStatusEnabled) (hlast : ∀ e ∈ after, ¬ e.names id key)
    (hreceiver : ∀ rand result, .next id .loaded rand result ∉ after) :
    ∀ receiver rand i, .next id receiver rand (.ok (key, i)) ∉ after := by
  obtain ⟨st1, st2, hbefore, hupdate, hafter⟩ := hrun.split rfl
  -- up to the change, what is repeated stays disabled
  obtain ⟨list1, hcached1, hrepeats1⟩ : ∃ statusList, CachedKeys decode st1 id (getKeys decode row) statusList ∧
      RepeatsDisabled (getKeys decode row) statusList key := by
    refine hbefore.inv (I := fun st => ∃ statusList, CachedKeys decode st id (getKeys decode row) statusList ∧
      RepeatsDisabled (getKeys decode row) statusList key) ?_ ⟨_, ⟨hmemory, row, hrow, hmulti, rfl, rfl⟩, hrepeats⟩
    rintro s e s' ⟨statusList, hcached, hrep⟩ hst
    rcases (cachedKeys_step hcached hst).1 with ⟨-, hcached'⟩ | ⟨i, status', hsets, hcached'⟩
    · exact ⟨statusList, hcached', hrep⟩
    cases e with
    | update => exact ⟨_, hcached', hrep.set hsets.2.1⟩
    | next => exact hsets.elim
  -- the change finds the key and disables its first place
  obtain ⟨list2, hcached2, hdisabled2⟩ : ∃ statusList, CachedKeys decode st2 id (getKeys decode row) statusList ∧
      KeyDisabled (getKeys decode row) statusList key := by
    rcases (cachedKeys_step hcached1 hupdate).1 with ⟨hnone, -⟩ | ⟨i, status', hsets, hcached'⟩
    · obtain ⟨i, hi⟩ : ∃ i, keyIndex (getKeys decode row) key = some i := by
        rw [← isSome_iff_exists]
        unfold keyIndex
        rw [List.findIdx?_isSome, List.any_eq_true]
        exact ⟨key, hkey, by simp⟩
      exact absurd ⟨rfl, hi, rfl⟩ (hnone i status)
    · obtain ⟨-, hindex, rfl⟩ := hsets
      exact ⟨_, hcached', hrepeats1.disable hindex hstatus⟩
  -- from then on every place of it is disabled
  have hnames : Run (within (KeyStep decode) fun _ e => ¬ e.names id key) st2 after st' := hafter.within_of hlast
  intro receiver rand i hin
  obtain rfl : receiver = .cached := by
    cases receiver with
    | cached => rfl
    | loaded => exact absurd hin (hreceiver rand _)
  refine Run.each (I := fun st => ∃ statusList, CachedKeys decode st id (getKeys decode row) statusList ∧
    KeyDisabled (getKeys decode row) statusList key) (P := fun e => ∀ rand i, e ≠ .next id .cached rand (.ok (key, i)))
    ?_ hnames ⟨list2, hcached2, hdisabled2⟩ _ hin rand i rfl
  rintro s e s' ⟨statusList, hcached, hdis⟩ ⟨hst, hother⟩
  obtain ⟨heffect, hhanded⟩ := cachedKeys_step hcached hst
  refine ⟨?_, fun rand i he => ?_⟩
  · rcases heffect with ⟨-, hcached'⟩ | ⟨i, status', hsets, hcached'⟩
    · exact ⟨statusList, hcached', hdis⟩
    cases e with
    | update =>
      obtain ⟨rfl, hindex, -⟩ := hsets
      exact ⟨_, hcached', hdis.set (fun heq => hother ⟨rfl, heq⟩) hindex⟩
    | next => exact hsets.elim
  · obtain ⟨hplace, henabled⟩ := hhanded rand key i he
    exact hdis i hplace henabled

def keysRow (key : String) (mode : MultiKeyMode) : ChannelRow :=
  { defaultRow 2 "gpt" with key := key, channelInfo := { isMultiKey := true, multiKeyMode := mode } }

def storeOf (row : ChannelRow) : ChannelStore where
  memoryCacheEnabled := true
  cache :=
    { emptyCache with
      channelsIDM := fun id => if id = row.id then some row else none
      channelsIDM_id := by
        intro id cached h
        split at h
        · cases h
          rename_i hid
          exact hid.symm
        · cases h }
  db := ⟨[row], nodup_singleton _, row.toAbilities⟩

theorem run_disable (key other : String) (place : ℕ) (change : StatusChange)
    (h : (nextCachedKey noArrays 0 (handlerMultiKeyUpdate noArrays (keysRow key .random) change 0)).result =
      .ok (other, place)) :
    ∃ st', Run (KeyStep noArrays) (storeOf (keysRow key .random))
      [.update 2 change {}, .next 2 .cached 0 (.ok (other, place))] st' :=
  ⟨_, .cons .update (.cons (.next (updateChannelStatus_cached noArrays {} change rfl rfl rfl) h) (.nil _))⟩

theorem disabled_key_kept_back_once :
    ∃ st', Run (KeyStep noArrays) (storeOf (keysRow "a\nb" .random))
        [.update 2 ⟨"a", channelStatusAutoDisabled, "rejected"⟩ {}, .next 2 .cached 0 (.ok ("b", 1))] st' ∧
      ∀ receiver rand i, .next 2 receiver rand (.ok ("a", i)) ∉ [KeyEvent.next 2 .cached 0 (.ok ("b", 1))] := by
  have hkeys : getKeys noArrays (keysRow "a\nb" .random) = ["a", "b"] := by decide +kernel
  obtain ⟨st', hrun⟩ := run_disable "a\nb" "b" 1 ⟨"a", channelStatusAutoDisabled, "rejected"⟩ rfl
  have hsplit : Run (KeyStep noArrays) (storeOf (keysRow "a\nb" .random))
      ([] ++ .update 2 ⟨"a", channelStatusAutoDisabled, "rejected"⟩ {} :: [.next 2 .cached 0 (.ok ("b", 1))]) st' :=
    hrun
  refine ⟨st', hrun, disabled_key_kept_back noArrays rfl rfl rfl ?_ ?_ hsplit (by decide) ?_ (by simp)⟩
  · rw [hkeys]
    exact mem_cons_self
  · rw [hkeys]
    intro i j hlt hi hj
    have hlen : j < 2 := (List.getElem?_eq_some_iff.1 hj).1
    obtain ⟨rfl, rfl⟩ : i = 0 ∧ j = 1 := by omega
    exact absurd hj (by decide)
  intro e he
  obtain rfl := mem_singleton.1 he
  exact fun h => h

/-- The second place of the key is enabled still, and so is the key in the database when the row could not be saved. -/
theorem disabled_key_handed_out :
    (∃ st', Run (KeyStep noArrays) (storeOf (keysRow "a\na" .random))
      [.update 2 ⟨"a", channelStatusAutoDisabled, "rejected"⟩ {}, .next 2 .cached 0 (.ok ("a", 1))] st') ∧
    ∃ st', Run (KeyStep noArrays) (storeOf (keysRow "a\nb" .random))
      [.update 2 ⟨"a", channelStatusAutoDisabled, "rejected"⟩ { saveErr := true }, .next 2 .loaded 0 (.ok ("a", 0))]
      st' :=
  ⟨run_disable "a\na" "a" 1 _ rfl, _, .cons .update (.cons (.loaded rfl rfl) (.nil _))⟩

end NewApi
