import NewApi.Spec.Distribute
import Mathlib.Logic.Function.Basic

/-!
# Channels with several keys

`model/channel.go`: the key of a channel may be a list of upstream keys, one a line or as a JSON array (`decode`).
Each has a status under its place in the list; one without a status is enabled. `GetNextEnabledKey` hands out a key,
and `handlerMultiKeyUpdate` changes the status of a key that is named by its text. A map that is `nil` and an empty
one are the same here.
-/

namespace NewApi

def channelStatusEnabled : ℤ := 1

def channelStatusManuallyDisabled : ℤ := 2

def channelStatusAutoDisabled : ℤ := 3

inductive MultiKeyMode
  | random
  | polling
  | other (name : String)
  deriving DecidableEq, Repr

structure ChannelInfo where
  isMultiKey : Bool := false
  multiKeyStatusList : ℕ → Option ℤ := fun _ => none
  multiKeyDisabledReason : ℕ → Option String := fun _ => none
  multiKeyDisabledTime : ℕ → Option ℤ := fun _ => none
  multiKeyPollingIndex : ℤ := 0
  multiKeyMode : MultiKeyMode := .random

inductive InfoValue
  | text (value : String)
  | number (value : ℤ)
  deriving DecidableEq, Repr

structure ChannelRow extends Channel where
  key : String
  status : ℤ
  /-- separated by commas, as the groups are -/
  (models group : String)
  otherInfo : String → Option InfoValue
  channelInfo : ChannelInfo
  /-- the keys, taken apart when the channel is cached; not a column of the table -/
  keys : List String

def trimNewlines (s : String) : String :=
  String.ofList ((s.toList.dropWhile fun c => c = '\n').rdropWhile fun c => c = '\n')

section
variable (decode : String → Option (List String))

def splitKeys (key : String) : List String :=
  let trimmed := trimSpace key
  let lines := splitText '\n' (trimNewlines key)
  if hasPrefix trimmed "[" then (decode trimmed).getD lines else lines

def getKeys (ch : ChannelRow) : List String :=
  if ch.key = "" then []
  else if ch.keys ≠ [] then ch.keys
  else splitKeys decode ch.key

def keyStatus (statusList : ℕ → Option ℤ) (i : ℕ) : ℤ := (statusList i).getD channelStatusEnabled

def enabledIdx (keys : List String) (statusList : ℕ → Option ℤ) : List ℕ :=
  (List.range keys.length).filter fun i => keyStatus statusList i = channelStatusEnabled

inductive KeyError
  /-- "no keys available" -/
  | noKeys
  /-- "no enabled keys" -/
  | noEnabledKeys
  | getChannelFailed
  deriving DecidableEq, Repr

/-- What `GetNextEnabledKey` returns, the channel afterwards, and whether `SaveChannelInfo` is called. -/
structure KeyChoice where
  result : Except KeyError (String × ℕ)
  channel : ChannelRow
  saves : Bool

def pollStart (index : ℤ) (size : ℕ) : ℕ := if index < 0 ∨ size ≤ index then 0 else index.toNat

def pollFrom (statusList : ℕ → Option ℤ) (size start : ℕ) : Option ℕ :=
  ((List.range size).map fun i => (start + i) % size).find? fun idx => keyStatus statusList idx = channelStatusEnabled

def ChannelRow.withPollingIndex (ch : ChannelRow) (index : ℤ) : ChannelRow :=
  { ch with channelInfo := { ch.channelInfo with multiKeyPollingIndex := index } }

/-- `GetNextEnabledKey`; `polled` is what `CacheGetChannelInfo` finds. -/
def getNextEnabledKey (polled : Option ChannelInfo) (rand : ℕ) (ch : ChannelRow) : KeyChoice :=
  if !ch.channelInfo.isMultiKey then ⟨.ok (ch.key, 0), ch, false⟩
  else
    let keys := getKeys decode ch
    let statusList := ch.channelInfo.multiKeyStatusList
    let keyAt idx := (keys.getD idx "", idx)
    if keys = [] then ⟨.error .noKeys, ch, false⟩
    else match enabledIdx keys statusList with
      | [] => ⟨.error .noEnabledKeys, ch, false⟩
      | first :: rest => match ch.channelInfo.multiKeyMode with
        | .random => ⟨.ok (keyAt ((first :: rest).getD (rand % (rest.length + 1)) first)), ch, false⟩
        | .polling => match polled with
          | none => ⟨.error .getChannelFailed, ch, false⟩
          | some info =>
            match pollFrom statusList keys.length (pollStart info.multiKeyPollingIndex keys.length) with
            | some idx => ⟨.ok (keyAt idx), ch.withPollingIndex ((idx + 1) % keys.length : ℕ), true⟩
            | none => ⟨.ok (keyAt first), ch, true⟩
        | .other _ => ⟨.ok (keyAt first), ch, false⟩

structure StatusChange where
  usingKey : String
  status : ℤ
  reason : String
  deriving DecidableEq, Repr

def hasEnabledMultiKey (keys : List String) (statusList : ℕ → Option ℤ) : Bool :=
  (List.range keys.length).any fun i => keyStatus statusList i = channelStatusEnabled

/-- The status of a channel, and in `OtherInfo` why and when. -/
def ChannelRow.withStatus (ch : ChannelRow) (status : ℤ) (reason : String) (now : ℤ) : ChannelRow :=
  { ch with
    status := status
    otherInfo := Function.update (Function.update ch.otherInfo "status_reason" (some (.text reason)))
      "status_time" (some (.number now)) }

def ChannelInfo.setKey (info : ChannelInfo) (i : ℕ) (change : StatusChange) (now : ℤ) : ChannelInfo :=
  if change.status = channelStatusEnabled then
    -- the reason and the time of an earlier change stay
    { info with multiKeyStatusList := Function.update info.multiKeyStatusList i none }
  else
    { info with
      multiKeyStatusList := Function.update info.multiKeyStatusList i (some change.status)
      multiKeyDisabledReason := Function.update info.multiKeyDisabledReason i (some change.reason)
      multiKeyDisabledTime := Function.update info.multiKeyDisabledTime i (some now) }

def handlerMultiKeyUpdate (ch : ChannelRow) (change : StatusChange) (now : ℤ) : ChannelRow :=
  let keys := getKeys decode ch
  if keys = [] then { ch with status := change.status }
  else match keys.findIdx? fun key => key = change.usingKey with
    | none => if change.usingKey ≠ "" then ch else ch.withStatus change.status change.reason now
    | some i =>
      let ch := { ch with channelInfo := ch.channelInfo.setKey i change now }
      if !hasEnabledMultiKey keys ch.channelInfo.multiKeyStatusList then
        ch.withStatus channelStatusAutoDisabled "All keys are disabled" now
      else if change.status = channelStatusEnabled then { ch with status := channelStatusEnabled }
      else ch

end

end NewApi
