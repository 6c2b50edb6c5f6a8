import NewApi.Spec.Price
import NewApi.Proof.RelayLoop

/-!
# Prices that are looked up, dropped or left behind
-/

namespace NewApi

open List GroupRatios Option Pick

/-- **The ratio of a recalculation** is that of the submission exactly if the lookup of the group for itself gives
what the one for the user's group gave. -/
theorem recalculated_ratio_iff (autoGroup user : Option String) (userGroup usingGroup : String) :
    (∀ g, let submitted := handleGroupRatio g autoGroup userGroup usingGroup
      let group := recalculationGroup submitted.1 user
      recalculationRatio g submitted.1 user = some submitted.2 ↔
        group ≠ "" ∧ g.resolve group group = g.resolve userGroup (autoGroup.getD usingGroup)) ∧
    (autoGroup.getD usingGroup ≠ "" → ((∀ g, let submitted := handleGroupRatio g autoGroup userGroup usingGroup
        recalculationRatio g submitted.1 user = some submitted.2) ↔ userGroup = autoGroup.getD usingGroup)) := by
  have hiff : ∀ g, let submitted := handleGroupRatio g autoGroup userGroup usingGroup
      let group := recalculationGroup submitted.1 user
      recalculationRatio g submitted.1 user = some submitted.2 ↔
        group ≠ "" ∧ g.resolve group group = g.resolve userGroup (autoGroup.getD usingGroup) := by
    intro g
    by_cases hgroup : recalculationGroup (autoGroup.getD usingGroup) user = "" <;>
      simp [handleGroupRatio, recalculationRatio, hgroup]
  refine ⟨hiff, fun hne => ?_⟩
  have hgroup : recalculationGroup (autoGroup.getD usingGroup) user = autoGroup.getD usingGroup := if_neg hne
  constructor
  · intro h
    -- settings in which only the user's own group has a special ratio
    have hspecial := ((hiff ⟨fun _ => none, fun a _ => if a = userGroup then some 2 else none⟩).1 (h _)).2
    simp only [handleGroupRatio, hgroup] at hspecial
    by_contra hother
    simp only [resolve, getGroupRatio, if_neg fun h => hother (Eq.symm h)] at hspecial
    norm_num at hspecial
  · intro h g
    refine (hiff g).2 ⟨?_, ?_⟩
    · exact hgroup ▸ hne
    · rw [handleGroupRatio, hgroup, ← h]

/-- A user of `vip` uses the group `default`, which costs them half. -/
theorem vip_rebilled_at_full_ratio :
    let g : GroupRatios := ⟨fun _ => some 1, fun a b => if a = "vip" ∧ b = "default" then some (1 / 2) else none⟩
    handleGroupRatio g none "vip" "default" = ("default", 1 / 2) ∧
      recalculationRatio g "default" (some "vip") = some 1 := by
  refine ⟨?_, ?_⟩ <;> simp [handleGroupRatio, recalculationRatio, recalculationGroup, resolve, getGroupRatio]

theorem saturateQuota_none {v quota : ℤ} (h : saturateQuota v = (quota, none)) : v = quota := by
  unfold saturateQuota at h
  split_ifs at h
  · cases h
  · cases h
  · exact (Prod.mk.inj h).1

theorem saturateQuota_eq_iff {v quota : ℤ} (h : saturateQuota quota = (quota, none)) :
    (saturateQuota v).1 = quota ↔ v = quota := by
  unfold saturateQuota at h ⊢
  split_ifs at h with hmax hmin <;> cases h
  split_ifs <;> simp only <;> omega

theorem tdiv_eq_floor {x : ℚ} (h : 0 ≤ x) : x.num.tdiv x.den = ⌊x⌋ := by
  rw [Int.tdiv_eq_ediv_of_nonneg (Rat.num_nonneg.2 h), ← Rat.floor_def]
  rfl

/-- Cutting the fraction off hides a factor that does not reach the next whole number. -/
theorem tdiv_mul_eq_iff (b : ℤ) {m : ℚ} (hm : 0 < m) :
    (b * m).num.tdiv (b * m).den = b ↔ b = 0 ∨ 1 ≤ m ∧ |b| * m < |b| + 1 := by
  have hnonneg (n : ℤ) (hn : 0 ≤ n) : (n * m).num.tdiv (n * m).den = n ↔ n = 0 ∨ 1 ≤ m ∧ n * m < n + 1 := by
    rw [tdiv_eq_floor (by positivity), Int.floor_eq_iff]
    rcases hn.eq_or_lt with rfl | hpos
    · simp
    · have hle : (n : ℚ) ≤ n * m ↔ 1 ≤ m := le_mul_iff_one_le_right (by exact_mod_cast hpos)
      rw [hle, or_iff_right hpos.ne']
  rcases le_total 0 b with hb | hb
  · rw [abs_of_nonneg hb]
    exact hnonneg b hb
  · have h := hnonneg (-b) (neg_nonneg.2 hb)
    rw [Int.cast_neg, neg_mul, Rat.neg_num, Rat.neg_den, Int.neg_tdiv, neg_inj, neg_eq_zero] at h
    rw [abs_of_nonpos hb, h]
    push_cast
    rw [neg_mul]

theorem quotaFromFloat_mul_eq_iff {b : ℤ} {m : ℚ} (hb : saturateQuota b = (b, none)) (hm : 0 < m) :
    quotaFromFloat (b * m) = b ↔ b = 0 ∨ 1 ≤ m ∧ |b| * m < |b| + 1 :=
  (saturateQuota_eq_iff hb).trans (tdiv_mul_eq_iff b hm)

theorem saturateQuota_of_strict {value : ℚ} {quota : ℤ} (h : quotaFromFloatStrict value = some quota) :
    saturateQuota quota = (quota, none) := by
  unfold quotaFromFloatStrict at h
  split at h
  · rename_i q hsat
    cases h
    rwa [saturateQuota_none hsat] at hsat
  · cases h

theorem helper_quota {m : ModelPricing} {groupRatio : ℚ} {p : PriceData}
    (h : modelPriceHelperPerCall m groupRatio = some p) :
    p.otherRatios = [] ∧ saturateQuota p.quota = (p.quota, none) := by
  obtain ⟨quota, hquota, rfl⟩ := map_eq_some_iff.1 h
  refine ⟨rfl, ?_⟩
  generalize (!m.enableFreeModelPreConsume && _) = free
  cases free with
  | true => rfl
  | false => exact saturateQuota_of_strict hquota

/-- **A remix pre-consumes the base quota**, whatever its origin has recorded. So what is recorded must be a multiplier
of one, or one that the cut of the fraction hides. -/
theorem remix_quota_iff {a : TaskAttempt} {info info' : TaskRelayInfo} {base : PriceData} {origin : OriginBilling}
    {q : ℤ} (hest : a.estimated = []) (hbase : modelPriceHelperPerCall a.pricing a.groupRatio = some base)
    (h : relayTaskSubmit a { info with priceData := resolveOriginTask origin info.priceData } = some (info', some q)) :
    let multiplier := (resolveOriginTask origin info.priceData).otherRatioMultiplier
    q = base.quota ∧ (q = quotaFromFloat (base.quota * multiplier) ↔
      base.quota = 0 ∨ 1 ≤ multiplier ∧ |base.quota| * multiplier < |base.quota| + 1) := by
  obtain ⟨hnone, hsaturate⟩ := helper_quota hbase
  have hplain : base.otherRatioMultiplier = 1 := by simp [PriceData.otherRatioMultiplier, hnone]
  have hquota : quotaFromFloat base.quota = base.quota := by
    simpa using (quotaFromFloat_mul_eq_iff hsaturate one_pos).2 (.inr ⟨le_rfl, by simp⟩)
  unfold relayTaskSubmit at h
  rw [hbase, hest] at h
  simp only [map_some, PriceData.addOtherRatios, foldl_nil, hplain, mul_one, hquota, ite_self,
    some.injEq, Prod.mk.injEq] at h
  have hq : q = base.quota := by
    obtain ⟨-, h⟩ := h
    split at h
    · cases h
    · exact (some.inj h).symm
  refine ⟨hq, ?_⟩
  rw [hq, eq_comm]
  exact quotaFromFloat_mul_eq_iff hsaturate (otherRatioMultiplier_pos _)

def perCallAttempt : TaskAttempt := ⟨⟨some 2, none, false, 0, 100, false⟩, 1, [], false⟩

theorem remix_quota_iff_size :
    (200 : ℤ) = quotaFromFloat ((200 : ℤ) * (resolveOriginTask (.context [("size", 1)]) {}).otherRatioMultiplier) := by
  have hbase : modelPriceHelperPerCall perCallAttempt.pricing perCallAttempt.groupRatio = some { quota := 200 } := by
    decide +kernel
  have hsubmit : relayTaskSubmit perCallAttempt { priceData := resolveOriginTask (.context [("size", 1)]) {} } =
      some ({ priceData := { quota := 200 } }, some 200) := by
    decide +kernel
  exact (@remix_quota_iff perCallAttempt {} _ _ (.context [("size", 1)]) 200 rfl hbase hsubmit).2.2 (by decide +kernel)

/-- A remix of a task of 8 seconds. -/
theorem remix_seconds_dropped :
    let recorded := resolveOriginTask (.legacy 8 "") {}
    (relayTaskSubmit perCallAttempt { priceData := recorded }).map Prod.snd = some (some 200) ∧
      quotaFromFloat (200 * recorded.otherRatioMultiplier) = 1600 :=
  ⟨by decide +kernel, by decide +kernel⟩

section
variable {overrides : ℕ → String → Option ℚ} {p : PriceData} {k : Pick}

theorem Pick.discount_pos (overrides : ℕ → String → Option ℚ) (k : Pick) : 0 < k.discount overrides := by
  unfold discount getChannelModelDiscount
  split
  · split
    · exact And.left ‹_›
    · exact one_pos
  · exact one_pos

theorem Pick.price_otherRatio (overrides : ℕ → String → Option ℚ) (p : PriceData) (k : Pick) :
    (k.price overrides p).otherRatio "channel_discount" =
      if k.retried = true ∧ k.discount overrides ≠ 1 then some (k.discount overrides)
      else p.otherRatio "channel_discount" := by
  have hadd : (p.addOtherRatio "channel_discount" (k.discount overrides)).otherRatio "channel_discount" =
      some (k.discount overrides) := by
    have hvalid : isValidOtherRatio (k.discount overrides) = true := decide_eq_true (k.discount_pos overrides)
    unfold PriceData.addOtherRatio
    rw [if_pos hvalid]
    exact lookup_cons_self
  unfold price
  split
  · rename_i hcond
    have hwrites : k.retried = true ∧ k.discount overrides ≠ 1 := by simpa using hcond
    rw [if_pos hwrites]
    exact hadd
  rename_i hcond
  have hwrites : ¬ (k.retried = true ∧ k.discount overrides ≠ 1) := by simpa using hcond
  rw [if_neg hwrites]

/-- The discount that the channels have left behind: that of the last retried one that has a discount. -/
def leftBehind (overrides : ℕ → String → Option ℚ) (picks : List Pick) : Option ℚ :=
  ((picks.filter fun k => k.retried && decide (k.discount overrides ≠ 1)).getLast?).map (·.discount overrides)

theorem foldl_price_otherRatio (hp : p.otherRatio "channel_discount" = none) (picks : List Pick) :
    (picks.foldl (price overrides) p).otherRatio "channel_discount" = leftBehind overrides picks := by
  induction picks using reverseRecOn with
  | nil => exact hp
  | append_singleton before k ih =>
    rw [foldl_append, foldl_cons, foldl_nil, price_otherRatio, ih]
    unfold leftBehind
    by_cases hwrites : k.retried = true ∧ k.discount overrides ≠ 1
    · simp [hwrites, filter_append]
    · have hskip : [k].filter (fun k => k.retried && decide (k.discount overrides ≠ 1)) = [] := by simpa using hwrites
      rw [if_neg hwrites, filter_append, hskip, append_nil]

/-- **The discount that is settled** is that of the channel that has served the request, exactly if it has written it
or what was left behind happens to be it. -/
theorem settled_discount_iff (compact : Bool) (hp : p.otherRatio "channel_discount" = none) (before : List Pick)
    (k : Pick) :
    ((settledPrice overrides compact p (before ++ [k])).otherRatio "channel_discount").getD 1 = k.discount overrides ↔
      if compact then k.discount overrides = 1
      else k.retried = true ∧ k.discount overrides ≠ 1 ∨
          (leftBehind overrides before).getD 1 = k.discount overrides := by
  unfold settledPrice
  cases compact with
  | true => exact eq_comm
  | false =>
    rw [if_neg Bool.false_ne_true, if_neg Bool.false_ne_true, foldl_append, foldl_cons, foldl_nil,
      price_otherRatio, foldl_price_otherRatio hp]
    by_cases hwrites : k.retried = true ∧ k.discount overrides ≠ 1 <;> simp [hwrites]

end

def halfOfThree (id : ℕ) (_ : String) : Option ℚ := if id = 3 then some (1 / 2) else none

theorem settled_discount_iff_retried :
    ((settledPrice halfOfThree false {} ([⟨false, 2, "gpt"⟩] ++ [⟨true, 3, "gpt"⟩])).otherRatio
      "channel_discount").getD 1 = discount halfOfThree ⟨true, 3, "gpt"⟩ :=
  (settled_discount_iff false rfl _ _).2 (.inl ⟨rfl, by decide +kernel⟩)

/-- Channels 4 and 3 fail, and channel 2 serves the request for half of its price. -/
theorem discount_left_behind :
    let envs (n : ℕ) : RelayEnv :=
      if n = 2 then { answer := none } else { upstreamDown with select := fun _ => { rand := 150 } }
    let picks : List Pick := [⟨false, 4, "gpt"⟩, ⟨true, 3, "gpt"⟩, ⟨true, 2, "gpt"⟩]
    relayPicks { plainCfg with contextChannel := 4 } 3 envs gptStart = (picks, true) ∧
      ((settledPrice halfOfThree false {} picks).otherRatio "channel_discount").getD 1 = 1 / 2 ∧
      discount halfOfThree ⟨true, 2, "gpt"⟩ = 1 ∧
    relayPicks { plainCfg with contextChannel := 3 } 1 (fun _ => { answer := none }) gptStart =
      ([⟨false, 3, "gpt"⟩], true) ∧
      ((settledPrice halfOfThree false {} [⟨false, 3, "gpt"⟩]).otherRatio "channel_discount").getD 1 = 1 := by
  decide +kernel

end NewApi
