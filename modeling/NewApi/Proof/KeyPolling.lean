import NewApi.Proof.ChannelStatus

/-!
# Polling requests and changes of a key

Without the memory cache a polling request saves the whole `ChannelInfo` of the copy it has loaded before it took the
lock, so old statuses are saved with the index. The requests leave no trace but the polling index as long as no status
is changed while a request has a copy (`SameButPolling`).
-/

namespace NewApi

open Trace ChannelRow Option

def ChannelRow.forget (row : ChannelRow) : ChannelRow := row.withPollingIndex 0

theorem eq_withPollingIndex {row row' : ChannelRow} (h : row'.forget = row.forget) :
    ∃ index, row' = row.withPollingIndex index := by
  have hback : row'.forget.withPollingIndex row'.channelInfo.multiKeyPollingIndex =
      row.forget.withPollingIndex row'.channelInfo.multiKeyPollingIndex := by rw [h]
  exact ⟨_, hback⟩

structure SameButPolling (db db' : ChannelDB) : Prop where
  rows : db.rows.map forget = db'.rows.map forget
  abilities : db.abilities = db'.abilities

theorem SameButPolling.trans {db1 db2 db3 : ChannelDB} (h : SameButPolling db1 db2)
    (h' : SameButPolling db2 db3) : SameButPolling db1 db3 :=
  ⟨h.rows.trans h'.rows, h.abilities.trans h'.abilities⟩

variable {db db' : ChannelDB} {decode : String → Option (List String)} {db : ChannelDB}

theorem SameButPolling.row (h : SameButPolling db db') (id : ℕ) : (db.row id).map forget = (db'.row id).map forget := by
  have hfind : ∀ db : ChannelDB, (db.rows.map forget).find? (fun row => row.id = id) = (db.row id).map forget := by
    intro db
    rw [List.find?_map]
    rfl
  rw [← hfind db, ← hfind db', h.rows]

theorem SameButPolling.updateRow {id : ℕ} {f f' : ChannelRow → ChannelRow}
    {hf : ∀ row, (f row).id = row.id} {hf' : ∀ row, (f' row).id = row.id} (h : SameButPolling db db')
    (hforget : ∀ row, (f row).forget = (f row.forget).forget)
    (hforget' : ∀ row, (f' row).forget = (f' row.forget).forget)
    (hsame : ∀ row, (f row).forget = (f' row).forget) :
    SameButPolling (db.updateRow id f hf) (db'.updateRow id f' hf') := by
  refine ⟨?_, h.abilities⟩
  have hmap : ∀ (rows : List ChannelRow) (g : ChannelRow → ChannelRow),
      (∀ row, (g row).forget = (g row.forget).forget) →
      (rows.map fun row => if row.id = id then g row else row).map forget =
        (rows.map forget).map fun row => if row.id = id then (g row).forget else row := by
    intro rows g hg
    rw [List.map_map, List.map_map]
    refine List.map_congr_left fun row _ => ?_
    change forget (if row.id = id then g row else row) =
      if row.id = id then (g row.forget).forget else row.forget
    rw [apply_ite forget, hg row]
  change (db.rows.map fun row => if row.id = id then f row else row).map forget =
    (db'.rows.map fun row => if row.id = id then f' row else row).map forget
  rw [hmap _ f hforget, hmap _ f' hforget', h.rows]
  simp [hsame]

section
variable (decode : String → Option (List String))

theorem handlerMultiKeyUpdate_withPollingIndex (row : ChannelRow) (index : ℤ) (change : StatusChange) (now : ℤ) :
    handlerMultiKeyUpdate decode (row.withPollingIndex index) change now =
      (handlerMultiKeyUpdate decode row change now).withPollingIndex index := by
  unfold handlerMultiKeyUpdate ChannelInfo.setKey withStatus withPollingIndex getKeys
  dsimp only
  repeat' split
  all_goals rfl

theorem changedRow_withPollingIndex (env : StatusEnv) (change : StatusChange) (row : ChannelRow) (index : ℤ) :
    changedRow decode env change (row.withPollingIndex index) =
      (changedRow decode env change row).withPollingIndex index := by
  unfold changedRow
  rw [handlerMultiKeyUpdate_withPollingIndex, apply_ite (withPollingIndex · index)]
  rfl

namespace SameButPolling

variable (h : SameButPolling db db')
include h

theorem saveStatusState (row : ChannelRow)
    (index : ℤ) : SameButPolling (saveStatusState db row) (saveStatusState db' (row.withPollingIndex index)) := by
  refine h.updateRow ?_ ?_ ?_
  all_goals
    intro stored
    unfold forget withPollingIndex
    split <;> rfl

theorem savedChange (env : StatusEnv) (change : StatusChange) (row : ChannelRow) (index : ℤ) :
    SameButPolling (savedChange decode env db change row)
      (savedChange decode env db' change (row.withPollingIndex index)) := by
  unfold NewApi.savedChange
  rw [changedRow_withPollingIndex]
  by_cases hfailed : (env.saveErr || decide (row.id = 0)) = true
  · rw [if_pos hfailed]
    exact (if_pos hfailed).symm ▸ h
  · rw [if_neg hfailed]
    exact (if_neg hfailed).symm ▸ h.saveStatusState _ index

theorem updateAbilityStatus (id : ℕ) (enabled : Bool) :
    SameButPolling (updateAbilityStatus db id enabled) (updateAbilityStatus db' id enabled) := by
  refine ⟨h.rows, ?_⟩
  unfold NewApi.updateAbilityStatus
  rw [h.abilities]

theorem updateStoredStatus (env : StatusEnv) (id : ℕ) (change : StatusChange) :
    SameButPolling (updateStoredStatus decode env db id change).1 (updateStoredStatus decode env db' id change).1 := by
  have hfind := h.row id
  by_cases hrowErr : env.rowErr = true
  · unfold NewApi.updateStoredStatus
    simp only [if_pos hrowErr]
    exact h
  rw [Bool.not_eq_true] at hrowErr
  cases hrow : db.row id with
  | none =>
    rw [hrow, map_none, eq_comm, map_eq_none_iff] at hfind
    unfold NewApi.updateStoredStatus
    rw [hrowErr, hrow, hfind]
    exact h
  | some row =>
    rw [hrow, map_some, eq_comm, map_eq_some_iff] at hfind
    obtain ⟨row', hrow', hforget⟩ := hfind
    obtain ⟨index, rfl⟩ := eq_withPollingIndex hforget
    rw [updateStoredStatus_found decode change hrowErr hrow, updateStoredStatus_found decode change hrowErr hrow']
    have hchange : abilitiesToChange decode env change (row.withPollingIndex index) =
        abilitiesToChange decode env change row := by
      unfold abilitiesToChange
      rw [changedRow_withPollingIndex]
      rfl
    have hsaved := h.savedChange decode env change row index
    rw [hchange]
    by_cases hsame : row.status = change.status
    · rw [if_pos hsame]
      exact (if_pos hsame).symm ▸ h
    rw [if_neg hsame, if_neg (show ¬ (row.withPollingIndex index).status = change.status from hsame)]
    split
    · exact hsaved.updateAbilityStatus id _
    · exact hsaved

end SameButPolling

end

def ChannelRow.Polls (row : ChannelRow) : Prop :=
  row.channelInfo.isMultiKey = true ∧ row.channelInfo.multiKeyMode = .polling

theorem polls_of_saves {polled : Option ChannelInfo} {rand : ℕ} {row : ChannelRow}
    (h : (getNextEnabledKey decode polled rand row).saves = true) : row.Polls := by
  unfold ChannelRow.Polls
  unfold getNextEnabledKey at h
  dsimp only at h
  repeat' split at h
  all_goals simp_all

def FreshCopies (s : KeyPollState) : Prop :=
  ∀ req row, s.loaded req = some row → row.Polls →
    (s.db.row row.id).map (fun stored => stored.forget.channelInfo) = some row.forget.channelInfo

theorem freshCopies_update {s : KeyPollState} (h : FreshCopies s) {req : ℕ} {copy : Option ChannelRow}
    (hcopy : ∀ row, copy = some row → row.Polls →
      (s.db.row row.id).map (fun stored => stored.forget.channelInfo) = some row.forget.channelInfo) :
    FreshCopies ⟨s.db, Function.update s.loaded req copy⟩ :=
  (Function.forall_update_iff s.loaded fun _ copy => ∀ row, copy = some row → row.Polls →
    (s.db.row row.id).map (fun stored => stored.forget.channelInfo) = some row.forget.channelInfo).2
    ⟨hcopy, fun req' _ => h req'⟩

/-- No status is changed while a request that polls has a copy of the channel. -/
def ChangesApart (s : KeyPollState) : KeyPollEvent → Prop
  | .update id _ _ => ∀ req row, s.loaded req = some row → row.id = id → ¬ row.Polls
  | _ => True

def KeyPollEvent.changes (decode : String → Option (List String)) (db : ChannelDB) : KeyPollEvent → ChannelDB
  | .update id change env => (updateStoredStatus decode env db id change).1
  | _ => db

def changesAlone (decode : String → Option (List String)) (db : ChannelDB) (es : List KeyPollEvent) : ChannelDB :=
  es.foldl (KeyPollEvent.changes decode) db

theorem SameButPolling.saveChannelInfo {row : ChannelRow}
    (hfresh : (db.row row.id).map (fun stored => stored.forget.channelInfo) = some row.forget.channelInfo)
    (index : ℤ) :
    SameButPolling (saveChannelInfo db (row.withPollingIndex index)) db := by
  refine ⟨?_, rfl⟩
  obtain ⟨stored, hstored, hinfo⟩ := map_eq_some_iff.1 hfresh
  change (db.rows.map fun r => if r.id = row.id then _ else r).map forget = _
  rw [List.map_map]
  refine List.map_congr_left fun r hr => ?_
  rw [Function.comp]
  split_ifs with hid
  · have hr' : db.row r.id = some r := db.row_eq hr
    rw [hid, hstored] at hr'
    cases hr'
    change { stored.forget with channelInfo := row.forget.channelInfo } = stored.forget
    rw [← hinfo]
  · rfl

theorem updateStoredStatus_row_ne {env : StatusEnv} {id other : ℕ} {change : StatusChange}
    (hne : other ≠ id) : (updateStoredStatus decode env db id change).1.row other = db.row other := by
  cases hrow : (if env.rowErr then none else db.row id) with
  | none =>
    unfold updateStoredStatus
    rw [hrow]
  | some row =>
    have hrowErr : env.rowErr = false := by
      cases herr : env.rowErr with
      | false => rfl
      | true => simp [herr] at hrow
    simp only [hrowErr, Bool.false_eq_true, if_false] at hrow
    have hsaved : (savedChange decode env db change row).row other = db.row other := by
      unfold savedChange
      split
      · rfl
      · exact row_updateRow_ne db _ _ (by rwa [changedRow_id, row_id hrow])
    rw [updateStoredStatus_found decode change hrowErr hrow]
    split_ifs
    · rfl
    · exact hsaved
    · exact hsaved

theorem SameButPolling.info (h : SameButPolling db db') (id : ℕ) :
    (db.row id).map (fun stored => stored.forget.channelInfo) =
      (db'.row id).map fun stored => stored.forget.channelInfo := by
  have hrow := congrArg (Option.map ChannelRow.channelInfo) (h.row id)
  rwa [Option.map_map, Option.map_map] at hrow

theorem polling_step {s s' : KeyPollState} {e : KeyPollEvent} (hfresh : FreshCopies s)
    (hsame : SameButPolling s.db db) (hstep : within (KeyPollStep decode) ChangesApart s e s') :
    FreshCopies s' ∧ SameButPolling s'.db (e.changes decode db) := by
  obtain ⟨hstep, hapart⟩ := hstep
  cases hstep with
  | @load req id row stored =>
    refine ⟨freshCopies_update hfresh fun row' hrow' _ => ?_, hsame⟩
    cases hrow'
    rw [row_id stored, stored, map_some]
  | @next req rand infoOk saveOk row loaded =>
    -- what is saved are the statuses of the copy, which are those of the row
    have hsaved : SameButPolling (if (nextLoadedKey decode s.db infoOk rand row).saves && saveOk then
        saveChannelInfo s.db (nextLoadedKey decode s.db infoOk rand row).channel else s.db) s.db := by
      split_ifs with hsaves
      · rw [Bool.and_eq_true] at hsaves
        obtain ⟨index, hchannel⟩ := getNextEnabledKey_channel decode
          (if infoOk then (s.db.row row.id).map channelInfo else none) rand row
        unfold nextLoadedKey at hsaves ⊢
        rw [hchannel]
        exact .saveChannelInfo (hfresh req row loaded (polls_of_saves hsaves.1)) index
      · exact ⟨rfl, rfl⟩
    have hfresh' : FreshCopies ⟨s.db, Function.update s.loaded req none⟩ :=
      freshCopies_update hfresh fun _ hnone => (by cases hnone)
    refine ⟨fun req' row' hloaded hpolls => ?_, hsaved.trans hsame⟩
    rw [hsaved.info]
    exact hfresh' req' row' hloaded hpolls
  | @update id change env =>
    refine ⟨fun req row hloaded hpolls => ?_, hsame.updateStoredStatus decode env id change⟩
    have hne : row.id ≠ id := fun hid => hapart req row hloaded hid hpolls
    rw [updateStoredStatus_row_ne hne]
    exact hfresh req row hloaded hpolls

/-- **Requests change nothing but the polling index**, if no status is changed while a request that polls has a copy
of the channel. -/
theorem polling_reverts_nothing (decode : String → Option (List String)) (db : ChannelDB) {es : List KeyPollEvent}
    {s : KeyPollState} (hrun : Run (within (KeyPollStep decode) ChangesApart) ⟨db, fun _ => none⟩ es s) :
    SameButPolling s.db (changesAlone decode db es) := by
  have hstart : FreshCopies ⟨db, fun _ => none⟩ ∧ SameButPolling db db :=
    ⟨fun req row hloaded => (by cases hloaded), ⟨rfl, rfl⟩⟩
  exact (hrun.simulates (R := fun s db => FreshCopies s ∧ SameButPolling s.db db) (f := KeyPollEvent.changes decode)
    (fun s e s' db h hstep => polling_step h.1 h.2 hstep) hstart).2

def pollingTable : ChannelDB := (storeOf (keysRow "a\nb" .polling)).db

theorem polling_reverts_nothing_apart :
    ∃ s, Run (KeyPollStep noArrays) ⟨pollingTable, fun _ => none⟩
        [.update 2 ⟨"a", channelStatusAutoDisabled, "rejected"⟩ {}, .load 0 2, .next 0 0 true true] s ∧
      SameButPolling s.db (changesAlone noArrays pollingTable
        [.update 2 ⟨"a", channelStatusAutoDisabled, "rejected"⟩ {}, .load 0 2, .next 0 0 true true]) := by
  have hsome : ((updateStoredStatus noArrays {} pollingTable 2 ⟨"a", channelStatusAutoDisabled, "rejected"⟩).1.row
      2).isSome = true := by decide +kernel
  obtain ⟨row, hrow⟩ := isSome_iff_exists.1 hsome
  have hapart : ChangesApart ⟨pollingTable, fun _ => none⟩
      (.update 2 ⟨"a", channelStatusAutoDisabled, "rejected"⟩ {}) := by
    intro req row hloaded
    cases hloaded
  obtain ⟨s, hrun⟩ : ∃ s, Run (within (KeyPollStep noArrays) ChangesApart) ⟨pollingTable, fun _ => none⟩
      [.update 2 ⟨"a", channelStatusAutoDisabled, "rejected"⟩ {}, .load 0 2, .next 0 0 true true] s :=
    ⟨_, .cons ⟨.update, hapart⟩ (.cons ⟨.load hrow, trivial⟩ (.cons ⟨.next rfl, trivial⟩ (.nil _)))⟩
  exact ⟨s, hrun.of_within, polling_reverts_nothing noArrays pollingTable hrun⟩

/-- The status that the change wrote is lost when the request saves its copy. -/
theorem disabled_key_reverted :
    ∃ s, Run (KeyPollStep noArrays) ⟨pollingTable, fun _ => none⟩
        [.load 0 2, .update 2 ⟨"a", channelStatusAutoDisabled, "rejected"⟩ {}, .next 0 0 true true] s ∧
      ((changesAlone noArrays pollingTable [.update 2 ⟨"a", channelStatusAutoDisabled, "rejected"⟩ {}]).row 2).map
        (fun row => row.channelInfo.multiKeyStatusList 0) = some (some channelStatusAutoDisabled) ∧
      (s.db.row 2).map (fun row => row.channelInfo.multiKeyStatusList 0) = some none := by
  refine ⟨_, .cons (.load rfl) (.cons .update (.cons (.next rfl) (.nil _))), ?_, ?_⟩
  · decide +kernel
  · decide +kernel

end NewApi
