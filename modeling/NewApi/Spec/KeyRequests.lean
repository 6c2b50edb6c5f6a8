import NewApi.Spec.ChannelCache

/-!
# Requests that take a key

A request takes the channel it was given (`middleware/distributor.go`) and asks it for a key. With the memory cache
that is the cached channel, which `UpdateChannelStatus` changes in place, or for a given channel and for a task
(`relay/relay_task.go`) a copy of the row that `GetChannelById` loads. Without it the request has loaded the row,
without the lock of the channel; `GetNextEnabledKey` then saves the whole `ChannelInfo` of that copy. Both functions
hold the lock from start to end, so each is one step.
-/

namespace NewApi

section
variable (decode : String → Option (List String))

theorem getNextEnabledKey_toChannel (polled : Option ChannelInfo) (rand : ℕ) (ch : ChannelRow) :
    (getNextEnabledKey decode polled rand ch).channel.toChannel = ch.toChannel := by
  unfold getNextEnabledKey ChannelRow.withPollingIndex
  dsimp only
  repeat' split
  all_goals rfl

/-- The channel that is asked for a key: the cached one, or a copy of the row -/
inductive KeyReceiver
  | cached | loaded
  deriving DecidableEq

inductive KeyEvent
  | update (id : ℕ) (change : StatusChange) (env : StatusEnv)
  | next (id : ℕ) (receiver : KeyReceiver) (rand : ℕ) (result : Except KeyError (String × ℕ))

/-- The polling index is that of the cached copy itself. -/
def nextCachedKey (rand : ℕ) (row : ChannelRow) : KeyChoice := getNextEnabledKey decode (some row.channelInfo) rand row

def nextCachedKeys (rand : ℕ) : ℕ → ChannelRow → List (Except KeyError (String × ℕ)) × ChannelRow
  | 0, row => ([], row)
  | n + 1, row =>
    let choice := nextCachedKey decode rand row
    let rest := nextCachedKeys rand n choice.channel
    (choice.result :: rest.1, rest.2)

/-- A copy is asked with the memory cache: the index is read from the cached channel and written to the copy. -/
def nextCopyKeys (cached : ChannelInfo) (rand : ℕ) : ℕ → ChannelRow → List (Except KeyError (String × ℕ)) × ChannelRow
  | 0, row => ([], row)
  | n + 1, row =>
    let choice := getNextEnabledKey decode (some cached) rand row
    let rest := nextCopyKeys cached rand n choice.channel
    (choice.result :: rest.1, rest.2)

inductive KeyStep : ChannelStore → KeyEvent → ChannelStore → Prop
  | update {st : ChannelStore} {id : ℕ} {change : StatusChange} {env : StatusEnv} :
      KeyStep st (.update id change env) (updateChannelStatus decode env st id change).1
  | next {st : ChannelStore} {id rand : ℕ} {row : ChannelRow} {result : Except KeyError (String × ℕ)}
      (cached : st.cache.channelsIDM id = some row) (handed : (nextCachedKey decode rand row).result = result) :
      KeyStep st (.next id .cached rand result)
        { st with
          cache := st.cache.modifyRow id (fun row => (nextCachedKey decode rand row).channel)
            fun row => congrArg Channel.id (getNextEnabledKey_toChannel decode (some row.channelInfo) rand row) }
  -- the copy is thrown away
  | loaded {st : ChannelStore} {id rand : ℕ} {row : ChannelRow} {result : Except KeyError (String × ℕ)}
      (stored : st.db.row id = some row)
      (handed : (getNextEnabledKey decode ((st.cache.channelsIDM id).map ChannelRow.channelInfo) rand row).result =
        result) : KeyStep st (.next id .loaded rand result) st

structure KeyPollState where
  db : ChannelDB
  loaded : ℕ → Option ChannelRow

inductive KeyPollEvent
  | load (req id : ℕ)
  | next (req rand : ℕ) (infoOk saveOk : Bool)
  | update (id : ℕ) (change : StatusChange) (env : StatusEnv)

def saveChannelInfo (db : ChannelDB) (row : ChannelRow) : ChannelDB :=
  db.updateRow row.id (fun stored => { stored with channelInfo := row.channelInfo }) fun _ => rfl

def nextLoadedKey (db : ChannelDB) (infoOk : Bool) (rand : ℕ) (row : ChannelRow) : KeyChoice :=
  getNextEnabledKey decode (if infoOk then (db.row row.id).map ChannelRow.channelInfo else none) rand row

inductive KeyPollStep : KeyPollState → KeyPollEvent → KeyPollState → Prop
  | load {s : KeyPollState} {req id : ℕ} {row : ChannelRow} (stored : s.db.row id = some row) :
      KeyPollStep s (.load req id) { s with loaded := Function.update s.loaded req (some row) }
  | next {s : KeyPollState} {req rand : ℕ} {infoOk saveOk : Bool} {row : ChannelRow}
      (loaded : s.loaded req = some row) :
      KeyPollStep s (.next req rand infoOk saveOk)
        { db :=
            if (nextLoadedKey decode s.db infoOk rand row).saves && saveOk then
              saveChannelInfo s.db (nextLoadedKey decode s.db infoOk rand row).channel
            else s.db
          loaded := Function.update s.loaded req none }
  | update {s : KeyPollState} {id : ℕ} {change : StatusChange} {env : StatusEnv} :
      KeyPollStep s (.update id change env) { s with db := (updateStoredStatus decode env s.db id change).1 }

end

end NewApi
