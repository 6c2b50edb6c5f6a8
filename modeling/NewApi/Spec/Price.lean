import NewApi.Spec.TaskPolling
import NewApi.Spec.RelayLoop
import Mathlib.Algebra.Order.BigOperators.GroupWithZero.List

/-!
# Prices

`types/price_data.go` and `relay/helper/price.go`: a price is a group ratio, a quota and a map of other ratios, by
which the quota is multiplied. The group ratio is looked up at the submission of a task and again by
`RecalculateTaskQuotaByTokens`. The other ratios are written by `ResolveOriginTask` (`relay/relay_task.go`), by the
adaptor's estimate, and by `getChannel` (`controller/relay.go`). Ratios are rational numbers.
-/

namespace NewApi

/-- What is read of `PriceData`; `otherRatios` is a map, with each name once. -/
structure PriceData where
  freeModel : Bool := false
  quota : ℤ := 0
  otherRatios : List (String × ℚ) := []
  deriving DecidableEq, Repr

def isValidOtherRatio (ratio : ℚ) : Bool := decide (0 < ratio)

namespace PriceData

def addOtherRatio (p : PriceData) (key : String) (ratio : ℚ) : PriceData :=
  if isValidOtherRatio ratio then
    { p with otherRatios := (key, ratio) :: p.otherRatios.filter fun r => r.1 ≠ key }
  else p

def addOtherRatios (p : PriceData) (ratios : List (String × ℚ)) : PriceData :=
  ratios.foldl (fun p r => p.addOtherRatio r.1 r.2) p

def otherRatio (p : PriceData) (key : String) : Option ℚ := p.otherRatios.lookup key

def otherRatioMultiplier (p : PriceData) : ℚ :=
  ((p.otherRatios.map Prod.snd).filter fun ratio => isValidOtherRatio ratio && decide (ratio ≠ 1)).prod

end PriceData

theorem otherRatioMultiplier_pos (p : PriceData) : 0 < p.otherRatioMultiplier := by
  refine List.prod_pos fun r hr => ?_
  exact of_decide_eq_true (Bool.and_eq_true_iff.1 (List.mem_filter.1 hr).2).1

/-- The settings: the ratio of a group, and that of a group for the users of another. -/
structure GroupRatios where
  groupRatio : String → Option ℚ
  groupGroupRatio : String → String → Option ℚ

def GroupRatios.getGroupRatio (g : GroupRatios) (name : String) : ℚ := (g.groupRatio name).getD 1

def GroupRatios.resolve (g : GroupRatios) (userGroup usingGroup : String) : ℚ :=
  (g.groupGroupRatio userGroup usingGroup).getD (g.getGroupRatio usingGroup)

def handleGroupRatio (g : GroupRatios) (autoGroup : Option String) (userGroup usingGroup : String) : String × ℚ :=
  (autoGroup.getD usingGroup, g.resolve userGroup (autoGroup.getD usingGroup))

/-- The group that `RecalculateTaskQuotaByTokens` takes: that of the task, or else that of its user. -/
def recalculationGroup (taskGroup : String) (user : Option String) : String :=
  if taskGroup = "" then user.getD "" else taskGroup

/-- The group ratio of `RecalculateTaskQuotaByTokens`; it returns when there is no group. -/
def recalculationRatio (g : GroupRatios) (taskGroup : String) (user : Option String) : Option ℚ :=
  let group := recalculationGroup taskGroup user
  if group = "" then none else some (g.resolve group group)

structure ModelPricing where
  /-- `GetModelPrice`, or else the default price -/
  modelPrice : Option ℚ
  /-- `GetModelRatio`, if it is set -/
  modelRatio : Option ℚ
  /-- the user, an administrator or the installation accepts models without a ratio -/
  acceptUnsetRatio : Bool
  /-- the ratio that `GetModelRatio` returns when none is set -/
  (unsetRatio quotaPerUnit : ℚ)
  enableFreeModelPreConsume : Bool

def quotaFromFloatStrict (value : ℚ) : Option ℤ :=
  match saturateQuota (value.num.tdiv value.den) with
  | (quota, none) => some quota
  | (_, some _) => none

def modelPriceHelperPerCall (m : ModelPricing) (groupRatio : ℚ) : Option PriceData :=
  let modelRatio := m.modelRatio.getD (if m.acceptUnsetRatio then m.unsetRatio else 1)
  -- a model without a price reserves half of its ratio
  let price := m.modelPrice.getD (modelRatio / 2)
  (quotaFromFloatStrict (price * m.quotaPerUnit * groupRatio)).map fun quota =>
    let free := !m.enableFreeModelPreConsume && (decide (groupRatio = 0) || decide (price = 0))
    { freeModel := free, quota := if free then 0 else quota }

/-- What a remix finds in its origin task: a billing context, or the old data. -/
inductive OriginBilling
  | context (otherRatios : List (String × ℚ))
  /-- `seconds` is 0 when it is not a number -/
  | legacy (seconds : ℤ) (size : String)

def maxTaskDurationSeconds : ℤ := 3600

def resolveOriginTask (origin : OriginBilling) (p : PriceData) : PriceData :=
  match origin with
  | .context otherRatios => p.addOtherRatios otherRatios
  | .legacy seconds size =>
    let seconds := min (if seconds ≤ 0 then 4 else seconds) maxTaskDurationSeconds
    let p := (p.addOtherRatio "seconds" seconds).addOtherRatio "size" 1
    if size = "1792x1024" ∨ size = "1024x1792" then p.addOtherRatio "size" (1666667 / 1000000) else p

structure TaskRelayInfo where
  priceData : PriceData := {}
  billing : Bool := false
  deriving DecidableEq, Repr

structure TaskAttempt where
  pricing : ModelPricing
  groupRatio : ℚ
  /-- `EstimateBilling` of the adaptor -/
  estimated : List (String × ℚ)
  /-- the model is one of `TaskPricePatches` -/
  patched : Bool

/-- `RelayTaskSubmit` up to the pre-consume: the price data, and the quota to pre-consume. -/
def relayTaskSubmit (a : TaskAttempt) (info : TaskRelayInfo) : Option (TaskRelayInfo × Option ℤ) :=
  (modelPriceHelperPerCall a.pricing a.groupRatio).map fun priceData =>
    -- the price data are built anew
    let info := { info with priceData := priceData.addOtherRatios a.estimated }
    let quota := if a.patched then info.priceData.quota
      else quotaFromFloat (info.priceData.quota * info.priceData.otherRatioMultiplier)
    let info := { info with priceData := { info.priceData with quota := quota } }
    (info, if info.billing || info.priceData.freeModel then none else some quota)

def getChannelModelDiscount (override : Option ℚ) : ℚ :=
  match override with
  | some v => if 0 < v ∧ v ≤ 1000 then v else 1
  | none => 1

/-- A channel that `getChannel` returns, for a model; `retried` when `ChannelMeta` was set. -/
structure Pick where
  retried : Bool
  channel : ℕ
  model : String
  deriving DecidableEq, Repr

def Pick.discount (overrides : ℕ → String → Option ℚ) (k : Pick) : ℚ :=
  getChannelModelDiscount (overrides k.channel k.model)

/-- The end of `getChannel`. The distributor's channel is returned before. -/
def Pick.price (overrides : ℕ → String → Option ℚ) (p : PriceData) (k : Pick) : PriceData :=
  if k.retried && decide (k.discount overrides ≠ 1) then p.addOtherRatio "channel_discount" (k.discount overrides)
  else p

def roundPick (cfg : RelayConfig) (env : RelayEnv) (s : RelayState) : Option Pick :=
  match (getChannel cfg env s).2 with
  | .ok id => some ⟨s.channelMeta, id, s.modelName⟩
  | .error _ => none

/-- The channels of at most `n` rounds, and whether the last of them has served the request. -/
def relayPicks (cfg : RelayConfig) : ℕ → (ℕ → RelayEnv) → RelayState → List Pick × Bool
  | 0, _, _ => ([], false)
  | n + 1, envs, s =>
    let picks := (roundPick cfg (envs 0) s).toList
    match relayRound cfg (envs 0) s with
    | (attempt, none) => (picks, attempt.isSome && decide ((envs 0).answer = none))
    | (_, some s') =>
      let rest := relayPicks cfg n (fun k => envs (k + 1)) s'
      (picks ++ rest.1, rest.2)

/-- The price data at the settlement. A compact response is settled with price data that are built anew. -/
def settledPrice (overrides : ℕ → String → Option ℚ) (compact : Bool) (p : PriceData) (picks : List Pick) : PriceData :=
  if compact then { p with otherRatios := [] } else picks.foldl (Pick.price overrides) p

end NewApi
