import NewApi.Spec.Price

/-!
# The quota of a text request, for every usage

`calculateTextQuotaSummary` (`service/text_quota.go`) with any counts that an upstream may report, in all billing modes
and with the option `AlwaysCacheHit`. The counts are `int`s, whose sums and differences wrap around; the amounts are
decimals.
-/

namespace NewApi

/-- The counts that are read of a usage, whatever the upstream says -/
structure RawUsage where
  (promptTokens completionTokens cachedTokens cachedCreationTokens cacheWriteTokens claudeCacheCreation5mTokens
    claudeCacheCreation1hTokens imageTokens audioTokens : ℤ)

/-- `CacheCreationTokensTotal` -/
def RawUsage.cacheCreationTokensTotal (u : RawUsage) : ℤ := max (max u.cachedCreationTokens u.cacheWriteTokens) 0

/-- The settings and the request that a usage is charged with -/
structure TextBilling where
  (modelRatio groupRatio completionRatio cacheRatio imageRatio cacheCreationRatio cacheCreationRatio5m
    cacheCreationRatio1h modelPrice audioInputPrice quotaPerUnit toolCallSurcharge maxTaskDurationSeconds : ℚ)
  billingDurationSeconds : ℚ := 0
  (useTimeSeconds billingCharacters : ℤ := 0)
  priceData : PriceData := {}
  billingMode : BillingMode := .ratio
  (usePrice alwaysCacheHit isClaudeUsageSemantic : Bool := false)
  /-- The request is not one of Claude's, and its usage names neither source nor semantic. -/
  legacyFormat : Bool := false
  /-- on OpenRouter, `CalcOpenRouterCacheCreateTokens`, or -1 where it is not asked -/
  openRouter : Option (RawUsage → ℤ) := none

/-- The cached tokens that are made up for a cache hit -/
def RawUsage.synthetic (u : RawUsage) : ℤ := min (max (u.promptTokens - 256) 1024) u.promptTokens

namespace TextBilling

variable (b : TextBilling) (u : RawUsage)

def ratio : ℚ := b.modelRatio * b.groupRatio

def cacheTokens : ℤ :=
  if u.cachedTokens = 0 ∧ b.alwaysCacheHit = true ∧ 1024 ≤ u.promptTokens then u.synthetic else u.cachedTokens

/-- `PromptTokens` and `CacheCreationTokens` of the summary -/
def tokens : ℤ × ℤ :=
  match b.isClaudeUsageSemantic, b.openRouter with
  | true, some create =>
    let prompt := (u.promptTokens - b.cacheTokens u).bmod (2 ^ 64)
    let maybe := create { u with cachedTokens := b.cacheTokens u }
    let creation := if u.cacheCreationTokensTotal = 0 ∧ 0 ≤ maybe ∧ maybe ≤ prompt then maybe
      else u.cacheCreationTokensTotal
    ((prompt - creation).bmod (2 ^ 64), creation)
  | _, _ => (u.promptTokens, u.cacheCreationTokensTotal)

/-- The prompt has the cached tokens: neither Claude's usage nor `legacyClaudeDerived`. -/
def countsCached : Bool :=
  !b.isClaudeUsageSemantic &&
    !(b.legacyFormat && (0 < u.claudeCacheCreation5mTokens || 0 < u.claudeCacheCreation1hTokens))

def cachedCreationTokensWithRatio : ℚ :=
  let creation := (b.tokens u).2
  if creation = 0 ∧ u.claudeCacheCreation5mTokens ≤ 0 ∧ u.claudeCacheCreation1hTokens ≤ 0 then 0
  else if b.countsCached u then creation * b.cacheCreationRatio
  else
    let remaining := (creation - u.claudeCacheCreation5mTokens - u.claudeCacheCreation1hTokens).bmod (2 ^ 64)
    (max 0 remaining : ℤ) * b.cacheCreationRatio +
      u.claudeCacheCreation5mTokens * b.cacheCreationRatio5m + u.claudeCacheCreation1hTokens * b.cacheCreationRatio1h

/-- The tokens of the prompt that have no price of their own -/
def baseTokens : ℤ :=
  (b.tokens u).1 - (if b.countsCached u then b.cacheTokens u + (b.tokens u).2 else 0) - u.imageTokens -
    if 0 < b.audioInputPrice then u.audioTokens else 0

/-- The cache ratio of a usage with cached tokens -/
def cacheRatioOf (cached : ℤ) : ℚ := if 0 < cached ∧ b.cacheRatio = 0 then 1 / 2 else b.cacheRatio

def promptQuota : ℚ :=
  (max 0 (b.baseTokens u) : ℤ) + b.cacheTokens u * b.cacheRatioOf (b.cacheTokens u) + u.imageTokens * b.imageRatio +
    b.cachedCreationTokensWithRatio u

def audioInputQuota : ℚ :=
  if 0 < b.audioInputPrice then b.audioInputPrice / 1000000 * u.audioTokens * b.groupRatio * b.quotaPerUnit else 0

def durationSeconds : ℚ :=
  min (if 0 < b.billingDurationSeconds then b.billingDurationSeconds else max 0 b.useTimeSeconds)
    b.maxTaskDurationSeconds

def durationUnits : ℚ :=
  match b.billingMode with
  | .durationSecond => max 1 b.durationSeconds
  | .durationMinute => max (1 / 60) (b.durationSeconds / 60)
  | .durationHour => max (1 / 3600) (b.durationSeconds / 3600)
  | _ => 1

def characters : ℚ := min (max b.billingCharacters 0 : ℤ) maxQuota

def modeQuotas : ℚ × ℚ × ℚ :=
  match b.billingMode with
  | .characters => (b.characters, 0, 0)
  | .inputOnly => (b.promptQuota u, 0, b.audioInputQuota u)
  | .outputOnly => (0, u.completionTokens * b.completionRatio, 0)
  | .durationSecond | .durationMinute | .durationHour => (b.durationUnits * b.quotaPerUnit, 0, b.audioInputQuota u)
  | .ratio => (b.promptQuota u, u.completionTokens * b.completionRatio, b.audioInputQuota u)

/-- The amount of a request without a fixed price, before the minimum and the rounding -/
def amount : ℚ :=
  let (prompt, completion, audio) := b.modeQuotas u
  ((prompt + completion) * b.ratio + audio) * b.priceData.otherRatioMultiplier + b.toolCallSurcharge

def quotaCalculateDecimal : ℚ :=
  if b.usePrice then
    let units := if b.billingMode = .characters then b.characters / 1000000 else b.durationUnits
    b.modelPrice * units * b.quotaPerUnit * b.groupRatio * b.priceData.otherRatioMultiplier + b.toolCallSurcharge
  else if b.ratio ≠ 0 ∧ b.amount u ≤ 0 then 1 else b.amount u

/-- `hasBillableUsage` -/
def Billable : Prop := 0 < (u.promptTokens + u.completionTokens).bmod (2 ^ 64) ∨ b.toolCallSurcharge ≠ 0
  deriving Decidable

/-- `Quota` of the summary -/
def summaryQuota : ℤ :=
  let quota := (quotaFromDecimalChecked (b.quotaCalculateDecimal u)).1
  if ¬ b.Billable u then 0
  else if b.ratio ≠ 0 ∧ quota = 0 then 1 else quota

/-- The tokens written to the cache that are charged: their price when each costs one. -/
def creationTokens : ℚ :=
  cachedCreationTokensWithRatio
    { b with cacheCreationRatio := 1, cacheCreationRatio5m := 1, cacheCreationRatio1h := 1 } u

end TextBilling

/-- The counts of a Claude usage -/
structure ClaudeUsage where
  (inputTokens outputTokens cacheReadInputTokens cacheCreationInputTokens : ℤ)
  /-- for 5 minutes and for an hour -/
  cacheCreation : Option (ℤ × ℤ) := none
  (claudeCacheCreation5mTokens claudeCacheCreation1hTokens : ℤ := 0)

/-- `service/billing_usage.go`. A usage without any token has no billing usage. -/
def usageFromClaudeBillingUsage (c : ClaudeUsage) : RawUsage :=
  let split := c.cacheCreation.getD (0, 0)
  { promptTokens := c.inputTokens, completionTokens := c.outputTokens, cachedTokens := c.cacheReadInputTokens
    cachedCreationTokens := c.cacheCreationInputTokens, cacheWriteTokens := 0, imageTokens := 0, audioTokens := 0
    claudeCacheCreation5mTokens := if split.1 = 0 then c.claudeCacheCreation5mTokens else split.1
    claudeCacheCreation1hTokens := if split.2 = 0 then c.claudeCacheCreation1hTokens else split.2 }

/-- `billingexpr.TokenParams` -/
structure TieredTokenParams where
  (p c len cr cc cc1h img imgO ai ao : ℤ)

/-- `service/tiered_settle.go`, where the usage and its semantic are Claude's or both are not. -/
def buildTieredTokenParams (u : RawUsage) (out : OutputTokenDetails) (isClaude : Bool) (usedVars : String → Bool) :
    TieredTokenParams :=
  let cc := if isClaude then u.claudeCacheCreation5mTokens else u.cacheCreationTokensTotal
  let cc1h := if isClaude then u.claudeCacheCreation1hTokens else 0
  let rest (total : ℤ) (parts : List (String × ℤ)) :=
    max 0 (if isClaude then total else total - ((parts.filter (usedVars ·.1)).map (·.2)).sum)
  { p := rest u.promptTokens
      [("cr", u.cachedTokens), ("cc", cc), ("cc1h", cc1h), ("img", u.imageTokens), ("ai", u.audioTokens)]
    c := rest u.completionTokens [("img_o", out.imageTokens), ("ao", out.audioTokens)]
    len := if isClaude then u.promptTokens + u.cachedTokens + cc + cc1h else u.promptTokens
    cr := u.cachedTokens, cc, cc1h, img := u.imageTokens, imgO := out.imageTokens, ai := u.audioTokens
    ao := out.audioTokens }

end NewApi
