import NewApi.Spec.BillingSession
import Mathlib.Data.Rat.Floor

/-!
# The quota of a realtime conversation

`service/quota.go`: the quota of a usage with text and audio tokens
(`calculateAudioQuota`), the charge of one turn (`PreWssConsumeQuota`), and the
settlement of the whole conversation (`PostWssConsumeQuota`); `dto/realtime.go` and
`addUsage` of `relay/realtime/relay.go` for the usage itself. Decimals are exact, so
they are rationals here.
-/

namespace NewApi

structure InputTokenDetails where
  cachedTokens : ℤ := 0
  cachedCreationTokens : ℤ := 0
  cacheWriteTokens : ℤ := 0
  textTokens : ℤ := 0
  audioTokens : ℤ := 0
  imageTokens : ℤ := 0
  deriving DecidableEq, Repr

structure OutputTokenDetails where
  textTokens : ℤ := 0
  audioTokens : ℤ := 0
  imageTokens : ℤ := 0
  reasoningTokens : ℤ := 0
  deriving DecidableEq, Repr

structure RealtimeUsage where
  totalTokens : ℤ := 0
  inputTokens : ℤ := 0
  outputTokens : ℤ := 0
  inputTokenDetails : InputTokenDetails := {}
  outputTokenDetails : OutputTokenDetails := {}
  deriving DecidableEq, Repr

/-- The cache creation and write tokens, the image tokens and the reasoning tokens are not added. -/
def addUsage (total usage : RealtimeUsage) : RealtimeUsage :=
  { total with
    totalTokens := total.totalTokens + usage.totalTokens
    inputTokens := total.inputTokens + usage.inputTokens
    outputTokens := total.outputTokens + usage.outputTokens
    inputTokenDetails := { total.inputTokenDetails with
      cachedTokens := total.inputTokenDetails.cachedTokens + usage.inputTokenDetails.cachedTokens
      textTokens := total.inputTokenDetails.textTokens + usage.inputTokenDetails.textTokens
      audioTokens := total.inputTokenDetails.audioTokens + usage.inputTokenDetails.audioTokens }
    outputTokenDetails := { total.outputTokenDetails with
      textTokens := total.outputTokenDetails.textTokens + usage.outputTokenDetails.textTokens
      audioTokens := total.outputTokenDetails.audioTokens + usage.outputTokenDetails.audioTokens } }

/-- `d.Round(0)`: to the nearest integer, halves away from zero. -/
def roundHalfAway (d : ℚ) : ℤ := if 0 ≤ d then ⌊d + 1 / 2⌋ else -⌊-d + 1 / 2⌋

def quotaFromDecimalChecked (d : ℚ) : ℤ × Option QuotaClamp := saturateQuota (roundHalfAway d)

/-- The billing modes; `ratio`, `tiered_expr` and any other text take the default branch. -/
inductive BillingMode
  | ratio | inputOnly | outputOnly | durationSecond | durationMinute | durationHour | characters
  deriving DecidableEq, Repr

structure RatioSetting where
  billingMode : String → BillingMode
  (completionRatio audioRatio audioCompletionRatio modelRatio groupRatio : String → ℚ)
  groupGroupRatio : String → String → Option ℚ
  (quotaPerUnit maxTaskDurationSeconds : ℚ)

structure TokenDetails where
  (textTokens audioTokens : ℤ)
  deriving DecidableEq, Repr

structure QuotaInfo where
  (inputDetails outputDetails : TokenDetails)
  modelName : String
  usePrice : Bool
  modelPrice : ℚ := 0
  (modelRatio groupRatio : ℚ)
  useTimeSeconds : ℤ := 0
  billingDurationSeconds : ℚ := 0
  billingCharacters : ℤ := 0

namespace QuotaInfo

def durationSeconds (rs : RatioSetting) (info : QuotaInfo) : ℚ :=
  if 0 < info.billingDurationSeconds then min info.billingDurationSeconds rs.maxTaskDurationSeconds
  else info.useTimeSeconds

/-- The seconds, minutes or hours that a duration mode bills, or `1` in the other modes. -/
def durationUnits (rs : RatioSetting) (info : QuotaInfo) : ℚ :=
  match rs.billingMode info.modelName with
  | .durationSecond => max 1 (info.durationSeconds rs)
  | .durationMinute => max (1 / 60) (info.durationSeconds rs / 60)
  | .durationHour => max (1 / 3600) (info.durationSeconds rs / 3600)
  | _ => 1

def characters (info : QuotaInfo) : ℚ := min (max info.billingCharacters 0 : ℤ) maxQuota

def priceUnits (rs : RatioSetting) (info : QuotaInfo) : ℚ :=
  match rs.billingMode info.modelName with
  | .characters => info.characters / 1000000
  | _ => info.durationUnits rs

def inputQuota (rs : RatioSetting) (info : QuotaInfo) : ℚ :=
  info.inputDetails.textTokens + info.inputDetails.audioTokens * rs.audioRatio info.modelName

def outputQuota (rs : RatioSetting) (info : QuotaInfo) : ℚ :=
  info.outputDetails.textTokens * rs.completionRatio info.modelName +
    info.outputDetails.audioTokens * rs.audioRatio info.modelName * rs.audioCompletionRatio info.modelName

def baseQuota (rs : RatioSetting) (info : QuotaInfo) : ℚ :=
  match rs.billingMode info.modelName with
  | .inputOnly => info.inputQuota rs
  | .outputOnly => info.outputQuota rs
  | .characters => info.characters
  | .durationSecond | .durationMinute | .durationHour => info.durationUnits rs * rs.quotaPerUnit
  | .ratio => info.inputQuota rs + info.outputQuota rs

end QuotaInfo

def calculateAudioQuota (rs : RatioSetting) (info : QuotaInfo) : ℤ × Option QuotaClamp :=
  if info.usePrice then
    quotaFromDecimalChecked
      (info.modelPrice * info.priceUnits rs * rs.quotaPerUnit * info.groupRatio)
  else
    let ratio := info.groupRatio * info.modelRatio
    let quota := info.baseQuota rs * ratio
    -- with a ratio that is not zero, a quota of zero or less becomes one
    quotaFromDecimalChecked (if ratio ≠ 0 ∧ quota ≤ 0 then 1 else quota)

structure RealtimeInfo where
  (originModelName upstreamModelName userGroup usingGroup : String)
  autoGroup : Option String
  usePrice : Bool
  /-- `PriceData` -/
  (priceModelRatio priceGroupRatio : ℚ)
  priceUsePrice : Bool

def RealtimeInfo.actualGroupRatio (rs : RatioSetting) (info : RealtimeInfo) : ℚ :=
  let usingGroup := info.autoGroup.getD info.usingGroup
  (rs.groupGroupRatio info.userGroup usingGroup).getD (rs.groupRatio usingGroup)

def usageDetails (usage : RealtimeUsage) : TokenDetails × TokenDetails :=
  (⟨usage.inputTokenDetails.textTokens, usage.inputTokenDetails.audioTokens⟩,
    ⟨usage.outputTokenDetails.textTokens, usage.outputTokenDetails.audioTokens⟩)

def turnQuota (rs : RatioSetting) (info : RealtimeInfo) (usage : RealtimeUsage) : ℤ :=
  (calculateAudioQuota rs {
    inputDetails := (usageDetails usage).1, outputDetails := (usageDetails usage).2
    modelName := info.originModelName, usePrice := info.usePrice
    modelRatio := rs.modelRatio info.originModelName
    groupRatio := info.actualGroupRatio rs }).1

def usageQuota (rs : RatioSetting) (info : RealtimeInfo) (usage : RealtimeUsage) : ℤ :=
  (calculateAudioQuota rs {
    inputDetails := (usageDetails usage).1, outputDetails := (usageDetails usage).2
    modelName := info.upstreamModelName, usePrice := info.priceUsePrice
    modelRatio := info.priceModelRatio, groupRatio := info.priceGroupRatio }).1

/-- The quota it settles, without a tiered expression: nothing when no tokens were counted. -/
def finalQuota (rs : RatioSetting) (info : RealtimeInfo) (usage : RealtimeUsage) : ℤ :=
  if usage.totalTokens = 0 then 0 else usageQuota rs info usage

def postConsumeQuota (cfg : Config) (env : Env) (info : RelayInfo) (quota : ℤ) (st : Store) : Store × Option Err :=
  let funded : Except Err Store :=
    if info.billingSource = some .subscription then
      if info.subscriptionId = 0 then .error .subscriptionIdMissing
      else if quota = 0 then .ok st
      else st.postConsume env.fundingErr info.subscriptionId quota
    else if 0 < quota then decreaseUserQuota cfg env.fundingErr quota st
    else increaseUserQuota cfg env.fundingErr (-quota) st
  match funded with
  | .error e => (st, some e)
  | .ok st' =>
    if info.isPlayground then (st', none)
    else attempt st' (if 0 < quota then decreaseTokenQuota cfg env.tokenErr quota st'
      else increaseTokenQuota cfg env.tokenErr (-quota) st')

/-- The wallet quota and the API token as `PreWssConsumeQuota` reads them, from Redis or from
their rows. -/
structure WssReads where
  (userQuota tokenRemain : ℤ)
  tokenUnlimited : Bool

def preWssConsumeQuota (cfg : Config) (env : Env) (reads : WssReads) (rs : RatioSetting)
    (rinfo : RealtimeInfo) (info : RelayInfo) (usage : RealtimeUsage) (st : Store) : Store × Option Err :=
  if rinfo.usePrice then (st, none)
  else if env.readErr then (st, some .db)
  else
    let quota := turnQuota rs rinfo usage
    if reads.userQuota < quota then (st, some .insufficientWalletQuota)
    else if reads.tokenUnlimited = false ∧ reads.tokenRemain < quota then
      (st, some (.tokenQuotaNotEnough reads.tokenRemain quota))
    -- the session is not told of this charge
    else postConsumeQuota cfg env info quota st

structure Turn where
  env : Env
  reads : WssReads
  usage : RealtimeUsage

def chargeTurns (cfg : Config) (rs : RatioSetting) (rinfo : RealtimeInfo) (info : RelayInfo) :
    List Turn → Store → Option Store
  | [], st => some st
  | turn :: turns, st =>
    match preWssConsumeQuota cfg turn.env turn.reads rs rinfo info turn.usage st with
    | (st', none) => chargeTurns cfg rs rinfo info turns st'
    | (_, some _) => none

def postWssConsumeQuota (cfg : Config) (env : Env) (rs : RatioSetting) (rinfo : RealtimeInfo)
    (usage : RealtimeUsage) (s : BillingSession) (st : Store) : BillingSession × Store :=
  let r := s.settle cfg env (finalQuota rs rinfo usage) st
  (r.1, r.2.1)

end NewApi
