import NewApi.Proof.Wss
import NewApi.Spec.TextBilling
import Mathlib.Algebra.Order.BigOperators.GroupWithZero.List

/-!
# What a usage can do to the quota

* `cache_hit_discounts_iff`: tokens that are made up for a cache hit lower the amount exactly if they save more of the
  prompt than they cost.
* `summary_quota_bounds_iff`: where the ratio is not zero, what is not positive is charged as one. The audio input is
  outside of the ratio, so with a model ratio of zero a negative count of audio tokens goes through, and a sum of tokens
  that wraps around is not charged at all.
* `cache_writes_agree_iff`: the tiered prices see the cache writes only as far as they are split.
-/

namespace NewApi

theorem roundHalfAway_mono {x y : ℚ} (hxy : x ≤ y) : roundHalfAway x ≤ roundHalfAway y := by
  unfold roundHalfAway
  split_ifs with hx hy hy
  · exact Int.floor_le_floor (by linarith)
  · linarith
  · have hpos : 0 ≤ ⌊y + 1 / 2⌋ := Int.floor_nonneg.2 (by linarith)
    have hneg : 0 ≤ ⌊-x + 1 / 2⌋ := Int.floor_nonneg.2 (by linarith)
    omega
  · exact neg_le_neg (Int.floor_le_floor (by linarith))

theorem roundHalfAway_nonneg_iff {x : ℚ} : 0 ≤ roundHalfAway x ↔ -1 / 2 < x := by
  unfold roundHalfAway
  split_ifs with hx
  · exact iff_of_true (Int.floor_nonneg.2 (by linarith)) (by linarith)
  · rw [Left.nonneg_neg_iff, ← Int.lt_add_one_iff, zero_add, Int.floor_lt]
    constructor <;> intro h <;> push_cast at * <;> linarith

theorem saturateQuota_nonneg_iff {v : ℤ} : 0 ≤ (saturateQuota v).1 ↔ 0 ≤ v := by
  unfold saturateQuota maxQuota minQuota
  split_ifs <;> simp only <;> omega

theorem quotaFromDecimalChecked_mono {x y : ℚ} (hxy : x ≤ y) :
    (quotaFromDecimalChecked x).1 ≤ (quotaFromDecimalChecked y).1 := by
  have hround := roundHalfAway_mono hxy
  unfold quotaFromDecimalChecked saturateQuota maxQuota minQuota
  split_ifs <;> simp only <;> omega

theorem quotaFromDecimalChecked_le (d : ℚ) : (quotaFromDecimalChecked d).1 ≤ maxQuota := by
  unfold quotaFromDecimalChecked saturateQuota maxQuota minQuota
  split_ifs <;> simp only <;> omega

theorem quotaFromDecimalChecked_nonneg_iff {d : ℚ} : 0 ≤ (quotaFromDecimalChecked d).1 ↔ -1 / 2 < d :=
  saturateQuota_nonneg_iff.trans roundHalfAway_nonneg_iff

namespace TextBilling

variable {b : TextBilling} {u : RawUsage}

section Bounds

theorem characters_nonneg : 0 ≤ b.characters := by
  unfold characters
  exact_mod_cast le_min (le_max_right _ _) (by decide)

theorem durationUnits_nonneg : 0 ≤ b.durationUnits := by
  unfold durationUnits
  split <;> positivity

/-- What the audio input adds to the amount, whatever the ratio is -/
def audioCharge (b : TextBilling) (u : RawUsage) : ℚ :=
  if b.billingMode = .characters ∨ b.billingMode = .outputOnly ∨ b.audioInputPrice ≤ 0 then 0
  else b.audioInputPrice / 1000000 * u.audioTokens * b.groupRatio * b.quotaPerUnit * b.priceData.otherRatioMultiplier

theorem amount_eq (b : TextBilling) (u : RawUsage) : b.amount u = ((b.modeQuotas u).1 + (b.modeQuotas u).2.1) *
    b.ratio * b.priceData.otherRatioMultiplier + b.audioCharge u + b.toolCallSurcharge := by
  have haudio : (b.modeQuotas u).2.2 * b.priceData.otherRatioMultiplier = b.audioCharge u := by
    unfold audioCharge modeQuotas audioInputQuota
    cases hmode : b.billingMode <;> by_cases hprice : 0 < b.audioInputPrice <;> simp [hprice, not_le.2, not_lt.1]
  rw [amount, ← haudio]
  ring

theorem price_nonneg (hgroup : 0 ≤ b.groupRatio) (hprice : 0 ≤ b.modelPrice) (hunit : 0 ≤ b.quotaPerUnit)
    (hsurcharge : 0 ≤ b.toolCallSurcharge) (huse : b.usePrice = true) : 0 ≤ b.quotaCalculateDecimal u := by
  have hother := otherRatioMultiplier_pos b.priceData
  have hcharacters := characters_nonneg (b := b)
  have hunits := durationUnits_nonneg (b := b)
  rw [quotaCalculateDecimal, if_pos huse]
  dsimp only
  split_ifs <;> positivity

theorem summaryQuota_of_billable (h : b.Billable u) : b.summaryQuota u =
    if b.ratio ≠ 0 ∧ (quotaFromDecimalChecked (b.quotaCalculateDecimal u)).1 = 0 then 1
    else (quotaFromDecimalChecked (b.quotaCalculateDecimal u)).1 := by
  rw [summaryQuota, if_neg (not_not.2 h)]

theorem summaryQuota_le : b.summaryQuota u ≤ maxQuota := by
  have hle := quotaFromDecimalChecked_le (b.quotaCalculateDecimal u)
  unfold summaryQuota
  dsimp only
  split_ifs
  · exact (by decide : (1 : ℤ) ≤ maxQuota)
  · exact hle
  · exact (by decide : (0 : ℤ) ≤ maxQuota)

/-- Where the ratio is not zero, or a price is fixed, no amount is below zero. -/
theorem checked_nonneg (hgroup : 0 ≤ b.groupRatio) (hprice : 0 ≤ b.modelPrice) (hunit : 0 ≤ b.quotaPerUnit)
    (hsurcharge : 0 ≤ b.toolCallSurcharge) (h : b.usePrice = true ∨ b.ratio ≠ 0) :
    0 ≤ (quotaFromDecimalChecked (b.quotaCalculateDecimal u)).1 := by
  rw [quotaFromDecimalChecked_nonneg_iff]
  refine lt_of_lt_of_le (by norm_num : (-1 / 2 : ℚ) < 0) ?_
  by_cases huse : b.usePrice = true
  · exact price_nonneg hgroup hprice hunit hsurcharge huse
  · rw [quotaCalculateDecimal, if_neg huse]
    split_ifs with hone
    · exact zero_le_one
    · exact (not_le.1 fun hle => hone ⟨h.resolve_left huse, hle⟩).le

/-- **A usage cannot pay the user**: the quota is in its range, and at least one for positive tokens and a ratio,
exactly if the sum of the tokens does not overflow, and with a ratio of zero the audio input takes off less than one
half. -/
theorem summary_quota_bounds_iff (hgroup : 0 ≤ b.groupRatio) (hprice : 0 ≤ b.modelPrice) (hunit : 0 ≤ b.quotaPerUnit)
    (hsurcharge : 0 ≤ b.toolCallSurcharge) (hprompt : -2 ^ 63 ≤ u.promptTokens ∧ u.promptTokens < 2 ^ 63)
    (hcompletion : -2 ^ 63 ≤ u.completionTokens ∧ u.completionTokens < 2 ^ 63) :
    (0 ≤ b.summaryQuota u ∧ b.summaryQuota u ≤ maxQuota ∧
      (0 < u.promptTokens + u.completionTokens → b.ratio ≠ 0 → 1 ≤ b.summaryQuota u)) ↔
    (b.ratio ≠ 0 → u.promptTokens + u.completionTokens < 2 ^ 63 ∨ b.toolCallSurcharge ≠ 0) ∧
      (b.ratio = 0 → b.usePrice = false → b.Billable u → -1 / 2 < b.audioCharge u + b.toolCallSurcharge) := by
  have hnonneg := checked_nonneg (u := u) hgroup hprice hunit hsurcharge
  have hle := summaryQuota_le (b := b) (u := u)
  by_cases hbillable : b.Billable u
  · rw [summaryQuota_of_billable hbillable] at hle ⊢
    by_cases hratio : b.ratio = 0
    · have hzero : ∀ q : ℤ, (if b.ratio ≠ 0 ∧ q = 0 then 1 else q) = q := fun q => if_neg fun h => h.1 hratio
      rw [hzero] at hle ⊢
      by_cases huse : b.usePrice = true
      · simp [hratio, huse, hle, hnonneg (.inl huse)]
      · have hamount : b.quotaCalculateDecimal u = b.audioCharge u + b.toolCallSurcharge := by
          rw [quotaCalculateDecimal, if_neg huse, if_neg fun h => h.1 hratio, amount_eq, hratio]
          ring
        have hfalse := Bool.eq_false_iff.2 huse
        simp [hle, hratio, hbillable, hfalse, quotaFromDecimalChecked_nonneg_iff, ← hamount]
    · -- the quota is at least one, and the tokens may not be the reason
      have hone : 1 ≤ if b.ratio ≠ 0 ∧ (quotaFromDecimalChecked (b.quotaCalculateDecimal u)).1 = 0 then 1
          else (quotaFromDecimalChecked (b.quotaCalculateDecimal u)).1 := by
        have := hnonneg (.inr hratio)
        split_ifs with h
        · exact le_refl 1
        · have : (quotaFromDecimalChecked (b.quotaCalculateDecimal u)).1 ≠ 0 := fun h0 => h ⟨hratio, h0⟩
          omega
      refine iff_of_true ⟨by omega, hle, fun _ _ => hone⟩ ⟨fun _ => ?_, fun h => absurd h hratio⟩
      refine hbillable.imp_left fun htotal => ?_
      by_contra hover
      rw [Int.bmod_def] at htotal
      omega
  · have hzero : b.summaryQuota u = 0 := by rw [summaryQuota, if_pos hbillable]
    rw [hzero]
    rw [Billable, not_or, not_not] at hbillable
    constructor
    · rintro ⟨-, -, hone⟩
      refine ⟨fun hratio => .inl ?_, fun _ _ h => absurd h (by rw [Billable]; tauto)⟩
      by_contra hover
      exact absurd (hone (by omega) hratio) (by decide)
    · rintro ⟨hsum, -⟩
      refine ⟨le_refl 0, by decide, fun hpos hratio => ?_⟩
      have hlt := (hsum hratio).resolve_right (not_not.2 hbillable.2)
      rw [Int.bmod_eq_of_le (by omega) (by omega)] at hbillable
      omega

end Bounds

section CacheHit

/-- The same settings with the option switched on or off -/
def withHit (b : TextBilling) (hit : Bool) : TextBilling := { b with alwaysCacheHit := hit }

theorem withHit_baseTokens (hit : Bool) : (b.withHit hit).baseTokens u = ((b.withHit hit).tokens u).1 -
    (if b.countsCached u then (b.withHit hit).cacheTokens u + ((b.withHit hit).tokens u).2 else 0) - u.imageTokens -
      if 0 < b.audioInputPrice then u.audioTokens else 0 :=
  rfl

theorem withHit_promptQuota (hit : Bool) : (b.withHit hit).promptQuota u =
    (max 0 ((b.withHit hit).baseTokens u) : ℤ) +
      (b.withHit hit).cacheTokens u * b.cacheRatioOf ((b.withHit hit).cacheTokens u) +
      u.imageTokens * b.imageRatio + (b.withHit hit).cachedCreationTokensWithRatio u :=
  rfl

theorem withHit_creation (h : (b.withHit true).tokens u = (b.withHit false).tokens u) :
    (b.withHit true).cachedCreationTokensWithRatio u = (b.withHit false).cachedCreationTokensWithRatio u := by
  simp only [cachedCreationTokensWithRatio, h]
  rfl

/-- The prompt of a cache hit is charged for its synthetic tokens. -/
def Injected (u : RawUsage) : Prop := u.cachedTokens = 0 ∧ 1024 ≤ u.promptTokens

/-- What the synthetic tokens take off the prompt: as many of its tokens as are left where the cached ones are counted
among them, nothing for Claude's usages, and for those of OpenRouter also what changes with the cache creation. -/
def saved (b : TextBilling) (u : RawUsage) : ℚ :=
  if b.countsCached u then (min u.synthetic (max 0 ((b.withHit false).baseTokens u)) : ℤ)
  else if b.isClaudeUsageSemantic = true ∧ b.openRouter.isSome = true then
    (max 0 ((b.withHit false).baseTokens u) - max 0 ((b.withHit true).baseTokens u) : ℤ) +
      (b.withHit false).cachedCreationTokensWithRatio u - (b.withHit true).cachedCreationTokensWithRatio u
  else 0

/-- The made-up tokens cost no more than they save. -/
def Discounted (b : TextBilling) (u : RawUsage) : Prop :=
  b.ratio = 0 ∨ ¬ Injected u ∨ u.synthetic * b.cacheRatioOf u.synthetic ≤ b.saved u

theorem withHit_of_not_injected (h : ¬ Injected u) :
    (b.withHit true).promptQuota u = (b.withHit false).promptQuota u := by
  have hcache (hit : Bool) : (b.withHit hit).cacheTokens u = u.cachedTokens := if_neg fun hc => h ⟨hc.1, hc.2.2⟩
  have htokens (hit : Bool) : (b.withHit hit).tokens u = (b.withHit false).tokens u := by
    simp only [tokens, hcache]
    rfl
  simp only [withHit_promptQuota, withHit_baseTokens, withHit_creation (htokens true), hcache, htokens true]

theorem promptQuota_of_injected (h : Injected u) : (b.withHit true).promptQuota u + b.saved u =
    (b.withHit false).promptQuota u + u.synthetic * b.cacheRatioOf u.synthetic := by
  have hon : (b.withHit true).cacheTokens u = u.synthetic := if_pos ⟨h.1, rfl, h.2⟩
  have hoff : (b.withHit false).cacheTokens u = 0 := by
    rw [cacheTokens, if_neg fun hc => Bool.false_ne_true hc.2.1, h.1]
  have hsynthetic : 0 ≤ u.synthetic := by
    have := h.2
    simp only [RawUsage.synthetic]
    omega
  simp only [withHit_promptQuota, hon, hoff, Int.cast_zero, zero_mul, add_zero]
  unfold saved
  split_ifs with hcached hrouter
  · have hclaude : b.isClaudeUsageSemantic = false := by
      simp only [countsCached, Bool.and_eq_true, Bool.not_eq_true'] at hcached
      exact hcached.1
    have htokens (hit : Bool) : (b.withHit hit).tokens u = (u.promptTokens, u.cacheCreationTokensTotal) := by
      simp [tokens, withHit, hclaude]
    have hbase : (b.withHit true).baseTokens u = (b.withHit false).baseTokens u - u.synthetic := by
      simp only [withHit_baseTokens, htokens, hcached, hon, hoff, if_true]
      omega
    have hsaved : max 0 ((b.withHit true).baseTokens u) + min u.synthetic (max 0 ((b.withHit false).baseTokens u)) =
        max 0 ((b.withHit false).baseTokens u) := by
      omega
    have hsaved' := congrArg (Int.cast (R := ℚ)) hsaved
    rw [Int.cast_add] at hsaved'
    rw [withHit_creation ((htokens true).trans (htokens false).symm)]
    linarith
  · push_cast
    ring
  · have htokens : (b.withHit true).tokens u = (b.withHit false).tokens u := by
      unfold tokens
      simp only [withHit]
      split
      · rename_i hclaude hsome
        exact absurd ⟨hclaude, by rw [hsome]; rfl⟩ hrouter
      · rfl
    have hbase : (b.withHit true).baseTokens u = (b.withHit false).baseTokens u := by
      simp only [withHit_baseTokens, htokens, hcached, Bool.false_eq_true, if_false]
    rw [hbase, withHit_creation htokens]
    ring

theorem amount_le_iff (hratio : 0 ≤ b.ratio) (hmode : b.billingMode = .ratio ∨ b.billingMode = .inputOnly) :
    (b.withHit true).amount u ≤ (b.withHit false).amount u ↔ b.Discounted u := by
  have hother := otherRatioMultiplier_pos b.priceData
  have hamount : (b.withHit true).amount u - (b.withHit false).amount u =
      ((b.withHit true).promptQuota u - (b.withHit false).promptQuota u) * b.ratio *
        b.priceData.otherRatioMultiplier := by
    have hsplit : ∃ completion, ∀ hit, (b.withHit hit).amount u = (((b.withHit hit).promptQuota u + completion) *
        b.ratio + b.audioInputQuota u) * b.priceData.otherRatioMultiplier + b.toolCallSurcharge := by
      rcases hmode with hmode | hmode
      · refine ⟨u.completionTokens * b.completionRatio, fun hit => ?_⟩
        rw [amount, modeQuotas, show (b.withHit hit).billingMode = _ from hmode]
        rfl
      · refine ⟨0, fun hit => ?_⟩
        rw [amount, modeQuotas, show (b.withHit hit).billingMode = _ from hmode]
        rfl
    obtain ⟨completion, hsplit⟩ := hsplit
    rw [hsplit, hsplit]
    ring
  rw [← sub_nonpos, hamount, Discounted]
  rcases hratio.eq_or_lt with hzero | hpos
  · simp [← hzero]
  · have hsign (x : ℚ) : x * b.ratio * b.priceData.otherRatioMultiplier ≤ 0 ↔ x ≤ 0 := by
      have hfactor := mul_pos hpos hother
      rw [mul_assoc]
      refine ⟨fun h => ?_, fun h => mul_nonpos_of_nonpos_of_nonneg h hfactor.le⟩
      by_contra hx
      exact absurd h (not_le.2 (mul_pos (not_le.1 hx) hfactor))
    rw [hsign]
    by_cases hinjected : Injected u
    · have hquota := promptQuota_of_injected (b := b) hinjected
      simp only [hpos.ne', hinjected, not_true, false_or]
      constructor <;> intro h <;> linarith
    · simp [hinjected, withHit_of_not_injected hinjected]

theorem summaryQuota_mono (huse : b.usePrice = false) (h : (b.withHit true).amount u ≤ (b.withHit false).amount u) :
    (b.withHit true).summaryQuota u ≤ (b.withHit false).summaryQuota u := by
  have hratio (hit : Bool) : (b.withHit hit).ratio = b.ratio := rfl
  have hbillable (hit : Bool) : (b.withHit hit).Billable u ↔ b.Billable u := Iff.rfl
  have huse' (hit : Bool) : (b.withHit hit).usePrice = false := huse
  have hone : (quotaFromDecimalChecked 1).1 = 1 := by decide +kernel
  have hzero : (quotaFromDecimalChecked 0).1 = 0 := by decide +kernel
  simp only [summaryQuota, quotaCalculateDecimal, huse', hratio, hbillable, Bool.false_eq_true, if_false]
  generalize (b.withHit true).amount u = x at h ⊢
  generalize (b.withHit false).amount u = y at h ⊢
  have hmono := quotaFromDecimalChecked_mono h
  have hpos {d : ℚ} (hd : ¬ d ≤ 0) := quotaFromDecimalChecked_mono (not_le.1 hd).le
  by_cases hnone : b.Billable u
  swap
  · simp [hnone]
  by_cases hr : b.ratio = 0
  · simpa [hnone, hr] using hmono
  simp only [hnone, hr, not_true, if_false, ne_eq, not_false_eq_true, true_and]
  by_cases hx : x ≤ 0
  · by_cases hy : y ≤ 0
    · simp [hx, hy]
    · have := hpos hy
      simp only [hx, hy, if_true, if_false, hone, one_ne_zero]
      split_ifs <;> omega
  · have hy : ¬ y ≤ 0 := fun hy => hx (h.trans hy)
    have := hpos hx
    simp only [hx, hy, if_false]
    split_ifs <;> omega

end CacheHit

section CacheWrites

/-- The tokens written to the cache are in the range of an `int`. -/
theorem tokens_snd_range (h : u.cacheCreationTokensTotal < 2 ^ 63) : 0 ≤ (b.tokens u).2 ∧ (b.tokens u).2 < 2 ^ 63 := by
  have hnonneg : 0 ≤ u.cacheCreationTokensTotal := le_max_right _ _
  unfold tokens
  split
  · dsimp only
    split_ifs with hmaybe
    · have hwrap := Int.bmod_lt (x := u.promptTokens - b.cacheTokens u) (by decide : 0 < 2 ^ 64)
      exact ⟨hmaybe.2.1, by omega⟩
    · exact ⟨hnonneg, h⟩
  · exact ⟨hnonneg, h⟩

theorem creationTokens_eq (hclaude : b.isClaudeUsageSemantic = true) : b.creationTokens u =
    (if (b.tokens u).2 = 0 ∧ u.claudeCacheCreation5mTokens ≤ 0 ∧ u.claudeCacheCreation1hTokens ≤ 0 then 0
    else max 0 (((b.tokens u).2 - u.claudeCacheCreation5mTokens - u.claudeCacheCreation1hTokens).bmod (2 ^ 64)) +
      u.claudeCacheCreation5mTokens + u.claudeCacheCreation1hTokens : ℤ) := by
  let b' : TextBilling := { b with cacheCreationRatio := 1, cacheCreationRatio5m := 1, cacheCreationRatio1h := 1 }
  have hcounts : b'.countsCached u = false := by simp [b', countsCached, hclaude]
  have htokens : b'.tokens u = b.tokens u := rfl
  change b'.cachedCreationTokensWithRatio u = _
  simp only [cachedCreationTokensWithRatio, hcounts, htokens, b', Bool.false_eq_true, if_false, mul_one]
  split_ifs <;> push_cast <;> rfl

end CacheWrites

end TextBilling

/-- **Both engines see the same cache writes** exactly if nothing of the total remains beside the split, in the
arithmetic of an `int`. For counts that are not negative, the split covers the total, and by no more than 2^63. -/
theorem cache_writes_agree_iff (b : TextBilling) (c : ClaudeUsage) (out : OutputTokenDetails)
    (usedVars : String → Bool) (hclaude : b.isClaudeUsageSemantic = true) :
    let u := usageFromClaudeBillingUsage c
    let params := buildTieredTokenParams u out true usedVars
    (((params.cc + params.cc1h : ℤ) : ℚ) = b.creationTokens u ↔
        if (b.tokens u).2 = 0 ∧ params.cc ≤ 0 ∧ params.cc1h ≤ 0 then params.cc + params.cc1h = 0
        else ((b.tokens u).2 - params.cc - params.cc1h).bmod (2 ^ 64) ≤ 0) ∧
      (u.cacheCreationTokensTotal < 2 ^ 63 → 0 ≤ params.cc ∧ params.cc < 2 ^ 63 →
        0 ≤ params.cc1h ∧ params.cc1h < 2 ^ 63 → (((params.cc + params.cc1h : ℤ) : ℚ) = b.creationTokens u ↔
          (b.tokens u).2 ≤ params.cc + params.cc1h ∧ params.cc + params.cc1h ≤ (b.tokens u).2 + 2 ^ 63)) := by
  intro u params
  rw [TextBilling.creationTokens_eq hclaude, Int.cast_inj]
  simp only [show params.cc = u.claudeCacheCreation5mTokens from rfl,
    show params.cc1h = u.claudeCacheCreation1hTokens from rfl]
  refine ⟨?_, fun htotal h5m h1h => ?_⟩
  · split_ifs <;> omega
  · have hrange := TextBilling.tokens_snd_range (b := b) htotal
    rw [Int.bmod_def]
    split_ifs <;> omega

def sampleBilling (modelRatio audioInputPrice : ℚ) : TextBilling :=
  { modelRatio, groupRatio := 1, completionRatio := 1, cacheRatio := 1 / 10, imageRatio := 1, cacheCreationRatio := 1,
    cacheCreationRatio5m := 1, cacheCreationRatio1h := 1, modelPrice := 0, audioInputPrice,
    quotaPerUnit := 500000, toolCallSurcharge := 0, maxTaskDurationSeconds := 3600 }

def claudeBilling : TextBilling := { sampleBilling 1 0 with isClaudeUsageSemantic := true }

def longPrompt : RawUsage := ⟨2048, 0, 0, 0, 0, 0, 0, 0, 0⟩

def negativeAudio : RawUsage := ⟨1, 0, 0, 0, 0, 0, 0, 0, -2⟩

theorem summary_quota_sample : 0 ≤ (sampleBilling 1 1).summaryQuota negativeAudio ∧
    (sampleBilling 1 1).summaryQuota negativeAudio ≤ maxQuota ∧ (0 < negativeAudio.promptTokens +
      negativeAudio.completionTokens → (sampleBilling 1 1).ratio ≠ 0 →
        1 ≤ (sampleBilling 1 1).summaryQuota negativeAudio) :=
  (TextBilling.summary_quota_bounds_iff (by decide +kernel) (by decide +kernel) (by decide +kernel)
    (by decide +kernel) (by decide) (by decide)).2 ⟨fun _ => .inl (by decide), by decide +kernel⟩

theorem negative_audio_tokens : (sampleBilling 0 1).summaryQuota negativeAudio = -1 := by decide +kernel

def cacheWrites (split : Option (ℤ × ℤ)) : RawUsage := usageFromClaudeBillingUsage ⟨1, 1, 0, 10, split, 0, 0⟩

theorem cache_writes_agree_split :
    (((10 : ℤ) + 0 : ℤ) : ℚ) = claudeBilling.creationTokens (cacheWrites (some (10, 0))) :=
  ((cache_writes_agree_iff claudeBilling ⟨1, 1, 0, 10, some (10, 0), 0, 0⟩ {} (fun _ => true) rfl).2 (by decide)
    (by decide) (by decide)).2 (by decide)

/-- Without a split, the tiered prices see no cache writes. -/
theorem unsplit_cache_writes : let params := buildTieredTokenParams (cacheWrites none) {} true fun _ => true
    params.cc + params.cc1h = 0 ∧ claudeBilling.creationTokens (cacheWrites none) = 10 := by
  decide +kernel

end NewApi
