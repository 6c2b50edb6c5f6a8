import NewApi.Spec.Basic
import Mathlib.Data.List.Sort
import Mathlib.Algebra.Order.Ring.Nat
import Mathlib.Algebra.Order.Ring.Rat

/-!
# Choosing a channel

`model/channel_cache.go` and `model/ability.go`: the channels that serve a model in a group, the weighted choice among
those of the highest priority, and the candidates of the `:floor` and `:nitro` tags. `service/serverless_cache.go`
adds a channel that is in no table. `GetChannel` returns an id also when its row can not be read. The random draws are
numbers of the environment.
-/

namespace NewApi

structure Channel where
  id : ℕ
  priority : ℤ
  weight : ℕ
  /-- `ResponseTime`, in milliseconds; not measured yet when 0 -/
  responseTime : ℤ
  /-- `GetChannelModelDiscount` -/
  discount : String → ℚ
  /-- Advanced Custom channels serve only the paths their configuration has routes for -/
  advancedCustom : Bool

structure Ability where
  (group model : String)
  channelId : ℕ
  enabled : Bool
  priority : ℤ
  weight : ℕ
  deriving DecidableEq, Repr

structure ChannelTable where
  memoryCacheEnabled : Bool
  group2model2channels : String → String → List ℕ
  channelsIDM : ℕ → Option Channel
  channelsIDM_id : ∀ id ch, channelsIDM id = some ch → ch.id = id
  /-- `SupportsPathForModel` of the configuration of an Advanced Custom channel -/
  supportsPath : ℕ → String → String → Bool
  formatMatchingModelName : String → String
  /-- the rows that are read when there is no memory cache -/
  abilities : List Ability

variable (tbl : ChannelTable)

abbrev Selection := Option ℕ × Bool

def servesPath (requestPath model : String) (id : ℕ) : Bool :=
  match tbl.channelsIDM id with
  | none => true
  | some ch => !ch.advancedCustom || tbl.supportsPath id requestPath model

def filterChannels (channels : List ℕ) (requestPath model : String) : List ℕ :=
  if requestPath = "" then channels else channels.filter (servesPath tbl requestPath model)

def satisfying (group model requestPath : String) : List ℕ :=
  let channels := filterChannels tbl (tbl.group2model2channels group model) requestPath model
  if channels = [] then
    filterChannels tbl (tbl.group2model2channels group (tbl.formatMatchingModelName model)) requestPath model
  else channels

def pickWeighted (factor adjustment : ℕ) : List Channel → ℕ → Option Channel
  | [], _ => none
  | ch :: rest, r =>
    if r < ch.weight * factor + adjustment then some ch
    else pickWeighted factor adjustment rest (r - (ch.weight * factor + adjustment))

def pickTarget (rand : ℕ) (targets : List Channel) : Option Channel :=
  let sum := (targets.map Channel.weight).sum
  if sum = 0 then pickWeighted 1 100 targets (rand % (targets.length * 100))
  else if sum / targets.length < 10 then pickWeighted 100 0 targets (rand % (sum * 100))
  else pickWeighted 1 0 targets (rand % sum)

def topPriority (channels : List Channel) : List Channel :=
  channels.filter fun ch => channels.all fun other => decide (other.priority ≤ ch.priority)

def cachedChannel (rand : ℕ) (group model : String) (ignored : List ℕ) (requestPath : String) : Selection :=
  match (satisfying tbl group model requestPath).filter fun id => !ignored.contains id with
  | [] => (none, false)
  -- a single channel is not weighed
  | [id] => match tbl.channelsIDM id with
    | some _ => (some id, false)
    | none => (none, true)
  | valid =>
    if valid.all fun id => (tbl.channelsIDM id).isSome then
      match pickTarget rand (topPriority (valid.filterMap tbl.channelsIDM)) with
      | some ch => (some ch.id, false)
      | none => (none, true)
    else (none, true)

/-- The ability that a number falls on; every ability has a weight of at least 10. -/
def pickAbility : List Ability → ℕ → Option ℕ
  | [], _ => none
  | ability :: rest, r =>
    if r ≤ ability.weight + 10 then some ability.channelId
    else pickAbility rest (r - (ability.weight + 10))

structure SelectEnv where
  rand : ℕ
  queryErr : Bool := false
  /-- the query for the configurations fails, and no ability is left out for its path -/
  pathErr : Bool := false
  rowErr : Bool := false

def foundAbilities (env : SelectEnv) (group model : String) (ignored : List ℕ) (requestPath : String) : List Ability :=
  tbl.abilities.filter fun a =>
    decide (a.group = group) && decide (a.model = model) && a.enabled && !ignored.contains a.channelId &&
      (decide (requestPath = "") || env.pathErr || servesPath tbl requestPath model a.channelId)

/-- `priority DESC, weight DESC`; rows that are equal in both may come in any order, here they keep
that of the table. -/
def Ability.before (a b : Ability) : Prop := b.priority < a.priority ∨ b.priority = a.priority ∧ b.weight ≤ a.weight

instance : DecidableRel Ability.before := fun _ _ => inferInstanceAs (Decidable (_ ∨ _))

/-- The rows up to the first one whose `Priority` differs from that of the first row. `Priority` is a pointer, here
the place of the row: it is the pointers that are compared. -/
def topAbilities (found : List Ability) : List Ability :=
  let rows := (found.insertionSort Ability.before).zipIdx
  match rows with
  | [] => []
  | first :: _ => (rows.takeWhile fun row => decide (row.2 = first.2)).map Prod.fst

def getChannelFromDB (env : SelectEnv) (group model : String) (ignored : List ℕ) (requestPath : String) : Selection :=
  if env.queryErr then (none, true)
  else
    let top := topAbilities (foundAbilities tbl env group model ignored requestPath)
    match pickAbility top (env.rand % (top.map fun a => a.weight + 10).sum) with
    | some id => (some id, env.rowErr)
    | none => (none, false)

def getRandomSatisfiedChannel (env : SelectEnv) (group model : String) (ignored : List ℕ)
    (requestPath : String) : Selection :=
  if tbl.memoryCacheEnabled then cachedChannel tbl env.rand group model ignored requestPath
  else getChannelFromDB tbl env group model ignored requestPath

def getSatisfiedChannels (group model : String) (ignored : List ℕ) (requestPath : String) : List Channel :=
  if tbl.memoryCacheEnabled then
    ((filterChannels tbl (tbl.group2model2channels group model) requestPath model).filter
      fun id => !ignored.contains id).filterMap tbl.channelsIDM
  else []

def effectiveChannelLatency (ch : Channel) : ℤ := if ch.responseTime ≤ 0 then 2 ^ 30 else ch.responseTime

/-- Whether a candidate of `:floor` is better than the best so far: cheaper, or as cheap and faster. -/
def floorBetter (model : String) (ch best : Channel) : Bool :=
  decide (ch.discount model < best.discount model) ||
    (decide (ch.discount model = best.discount model) &&
      decide (effectiveChannelLatency ch < effectiveChannelLatency best))

def nitroBetter (ch best : Channel) : Bool := decide (effectiveChannelLatency ch < effectiveChannelLatency best)

/-- `pickTaggedChannel`; `:floor` goes before `:nitro`. -/
def pickTaggedChannel (group model : String) (ignored : List ℕ) (requestPath : String)
    (useFloor useNitro : Bool) : Option Channel :=
  match getSatisfiedChannels tbl group model ignored requestPath with
  | [] => none
  | first :: rest => some <| rest.foldl (fun best ch =>
      if useFloor then (if floorBetter model ch best then ch else best)
      else if useNitro && nitroBetter ch best then ch else best) first

structure ServerlessCache where
  activeDeployments : String → Option String
  modelPriority : String → Option ℤ
  /-- the option `model_deployment.ionet.api_key` -/
  apiKey : String

def placeholderEndpoint : String := "https://io.net/api/v1/"

def serverlessChannelId : ℕ := 999999

def constructServerlessChannel (apiKey endpoint : String) : Option ℕ :=
  if placeholderEndpoint.toList.isPrefixOf endpoint.toList || isBlank endpoint then none
  else if isBlank apiKey then none
  else some serverlessChannelId

def ServerlessCache.priority (cache : ServerlessCache) (model : String) : ℤ := (cache.modelPriority model).getD 0

def ServerlessCache.activeChannel (cache : ServerlessCache) (model : String) : Option ℕ :=
  match cache.activeDeployments model with
  | some endpoint => constructServerlessChannel cache.apiKey endpoint
  | none => match cache.activeDeployments model.toLower with
    | some endpoint => constructServerlessChannel cache.apiKey endpoint
    | none => none

structure Deployment where
  (id name : String)

/-- The deployments that `SyncServerlessCache` writes: the last one named after a model. -/
def syncedDeployments (deployments : List Deployment) (model : String) : Option String :=
  (deployments.reverse.find? fun d => decide (d.name = "new-api-model-" ++ model)).map
    fun d => placeholderEndpoint ++ d.id

end NewApi
