import NewApi.Proof.Select
import Mathlib.Data.Set.Finite.Lemmas

/-!
# The weights of the choice

`GetRandomSatisfiedChannel` draws a number below `totalWeight` and takes the effective weights of the targets from it.
The total is computed from the sum of the weights and the smoothing factor. The two agree in all three regimes
(`totalWeight_eq`), so the draw falls on each target as often as its effective weight says.
-/

namespace NewApi

open List

def sumWeight (targets : List Channel) : ℕ := (targets.map Channel.weight).sum

def smoothing (targets : List Channel) : ℕ × ℕ :=
  if sumWeight targets = 0 then (1, 100)
  else if sumWeight targets / targets.length < 10 then (100, 0)
  else (1, 0)

def totalWeight (targets : List Channel) : ℕ :=
  (if sumWeight targets = 0 then targets.length * 100 else sumWeight targets) * (smoothing targets).1

def effectiveWeight (targets : List Channel) (ch : Channel) : ℕ :=
  ch.weight * (smoothing targets).1 + (smoothing targets).2

theorem pickTarget_eq (rand : ℕ) (targets : List Channel) : pickTarget rand targets =
      pickWeighted (smoothing targets).1 (smoothing targets).2 targets (rand % totalWeight targets) := by
  unfold pickTarget totalWeight smoothing sumWeight
  dsimp only
  split_ifs
  · rw [Nat.mul_one]
  · rfl
  · rw [Nat.mul_one]

/-- **The draw covers what the loop subtracts.** -/
theorem totalWeight_eq (targets : List Channel) :
    totalWeight targets = (targets.map (effectiveWeight targets)).sum := by
  have hsum : (targets.map (effectiveWeight targets)).sum =
      sumWeight targets * (smoothing targets).1 + targets.length * (smoothing targets).2 :=
    sum_effective _ _ targets
  rw [hsum]
  unfold totalWeight smoothing
  by_cases hzero : sumWeight targets = 0
  · simp only [if_pos hzero]
    omega
  · simp only [if_neg hzero]
    split <;> omega

variable {targets : List Channel} {tbl : ChannelTable} {group model path : String} {ignored valid : List ℕ}

theorem totalWeight_pos (h : targets ≠ []) : 0 < totalWeight targets := by
  have hlen := length_pos_of_ne_nil h
  unfold totalWeight smoothing
  by_cases hzero : sumWeight targets = 0
  · simp only [if_pos hzero]
    omega
  · simp only [if_neg hzero]
    split <;> omega

theorem topPriority_ne_nil {channels : List Channel} (h : channels ≠ []) : topPriority channels ≠ [] := by
  obtain ⟨first, hfirst⟩ := exists_mem_of_ne_nil channels h
  obtain ⟨ch, hch, hmax⟩ := Set.exists_max_image (fun ch => ch ∈ channels) Channel.priority
    channels.finite_toSet ⟨first, hfirst⟩
  exact ne_nil_of_mem (mem_topPriority.2 ⟨hch, hmax⟩)

theorem sumWeight_eq_zero : sumWeight targets = 0 ↔ ∀ t ∈ targets, t.weight = 0 := by
  unfold sumWeight
  rw [List.sum_eq_zero_iff_forall_eq_nat]
  simp

theorem effectiveWeight_zero (hzero : ∀ t ∈ targets, t.weight = 0) {ch : Channel}
    (hch : ch ∈ targets) : effectiveWeight targets ch = 100 := by
  unfold effectiveWeight smoothing
  simp [sumWeight_eq_zero.2 hzero, hzero ch hch]

theorem effectiveWeight_proportional {ch ch' : Channel} (hch : ch ∈ targets)
    (hch' : ch' ∈ targets) : effectiveWeight targets ch * ch'.weight = effectiveWeight targets ch' * ch.weight := by
  by_cases hzero : ∀ t ∈ targets, t.weight = 0
  · simp [hzero ch hch, hzero ch' hch']
  unfold effectiveWeight smoothing
  rw [if_neg fun h => hzero (sumWeight_eq_zero.1 h)]
  split <;> grind

section
variable {factor adjustment : ℕ}

theorem pickWeighted_total : ∀ {channels : List Channel} {r : ℕ},
    r < (channels.map fun ch => ch.weight * factor + adjustment).sum →
      ∃ ch, pickWeighted factor adjustment channels r = some ch
  | [], _, h => by simp at h
  | first :: rest, r, h => by
    rw [map_cons, sum_cons] at h
    unfold pickWeighted
    split
    · exact ⟨first, rfl⟩
    · exact pickWeighted_total (by omega)

theorem count_pickWeighted (id : ℕ) (channels : List Channel) :
    (range (channels.map fun ch => ch.weight * factor + adjustment).sum).countP
        (fun r => decide ((pickWeighted factor adjustment channels r).map Channel.id = some id)) =
      ((channels.filter fun ch => ch.id = id).map fun ch => ch.weight * factor + adjustment).sum := by
  induction channels with
  | nil => rfl
  | cons first rest ih =>
    -- the numbers below the first weight, and the others shifted down by it
    have hlow : ∀ r ∈ range (first.weight * factor + adjustment),
        decide ((pickWeighted factor adjustment (first :: rest) r).map Channel.id = some id) =
          decide (first.id = id) := by
      intro r hr
      rw [pickWeighted, if_pos (mem_range.1 hr)]
      simp
    have hhigh : ∀ r, pickWeighted factor adjustment (first :: rest) (first.weight * factor + adjustment + r) =
        pickWeighted factor adjustment rest r := by
      intro r
      rw [pickWeighted, if_neg (by omega), Nat.add_sub_cancel_left]
    rw [map_cons, sum_cons, range_add, countP_append, countP_map, countP_congr fun r hr => by rw [hlow r hr]]
    simp only [Function.comp_def, hhigh, ih]
    by_cases hid : first.id = id <;> simp [hid]

end

theorem cachedChannel_eq (hvalid : (satisfying tbl group model path).filter (fun id => !ignored.contains id) = valid)
    (hrows : ∀ id ∈ valid, (tbl.channelsIDM id).isSome = true) {r : ℕ}
    (hr : r < totalWeight (topPriority (valid.filterMap tbl.channelsIDM))) :
    ∃ ch, pickTarget r (topPriority (valid.filterMap tbl.channelsIDM)) = some ch ∧
      cachedChannel tbl r group model ignored path = (some ch.id, false) := by
  obtain ⟨ch, hpick⟩ : ∃ ch, pickTarget r (topPriority (valid.filterMap tbl.channelsIDM)) = some ch := by
    rw [pickTarget_eq, Nat.mod_eq_of_lt hr]
    rw [totalWeight_eq] at hr
    exact pickWeighted_total hr
  refine ⟨ch, hpick, ?_⟩
  unfold cachedChannel
  rw [hvalid]
  match valid, hrows, hpick with
  | [], _, hpick => cases hpick
  | [id], hrows, hpick =>
    obtain ⟨row, hrow⟩ := Option.isSome_iff_exists.1 (hrows id mem_cons_self)
    have hmem := mem_of_mem_filter (pickTarget_mem hpick)
    simp only [filterMap_cons, hrow, filterMap_nil, mem_singleton] at hmem
    rw [hmem, tbl.channelsIDM_id id row hrow]
    simp [hrow]
  | x :: y :: rest, hrows, hpick =>
    have hall : ((x :: y :: rest).all fun id => (tbl.channelsIDM id).isSome) = true := all_eq_true.2 hrows
    simp [hall, hpick]

theorem filter_id_weights {ch : Channel} (hch : tbl.channelsIDM ch.id = some ch)
    (htargets : ∀ t ∈ targets, tbl.channelsIDM t.id = some t) (weight : Channel → ℕ) :
    ((targets.filter fun t => t.id = ch.id).map weight).sum =
      targets.countP (fun t => decide (t.id = ch.id)) * weight ch := by
  have hsame : ∀ t ∈ targets.filter (fun t => t.id = ch.id), weight t = weight ch := by
    intro t ht
    obtain ⟨hmem, hid⟩ := mem_filter.1 ht
    have hrow := htargets t hmem
    rw [of_decide_eq_true hid, hch] at hrow
    rw [Option.some.inj hrow]
  rw [map_congr_left hsame, map_const', sum_replicate_nat, countP_eq_length_filter]

/-- **The weighted choice is exact.** Every number returns a candidate of the highest priority, and a target is
returned for as many numbers as it weighs; the effective weights are in proportion to the weights, or all equal. -/
theorem weighted_choice_exact (hmemory : tbl.memoryCacheEnabled = true)
    (hvalid : (satisfying tbl group model path).filter (fun id => !ignored.contains id) = valid)
    (hne : valid ≠ []) (hrows : ∀ id ∈ valid, (tbl.channelsIDM id).isSome = true) :
    let targets := topPriority (valid.filterMap tbl.channelsIDM)
    let choice := fun r => getRandomSatisfiedChannel tbl { rand := r } group model ignored path
    0 < totalWeight targets ∧
    (∀ r < totalWeight targets, ∃ id ∈ valid, ∃ ch, tbl.channelsIDM id = some ch ∧
      (∀ other ∈ valid, ∀ ch', tbl.channelsIDM other = some ch' → ch'.priority ≤ ch.priority) ∧
      choice r = (some id, false)) ∧
    (∀ ch ∈ targets, (List.range (totalWeight targets)).countP (fun r => decide (choice r = (some ch.id, false))) =
      targets.countP (fun t => decide (t.id = ch.id)) * effectiveWeight targets ch) ∧
    ∀ ch ∈ targets, ((∀ t ∈ targets, t.weight = 0) → effectiveWeight targets ch = 100) ∧
      ∀ ch' ∈ targets, effectiveWeight targets ch * ch'.weight = effectiveWeight targets ch' * ch.weight := by
  intro targets choice
  have hchoice : ∀ r, choice r = cachedChannel tbl r group model ignored path := fun _ => if_pos hmemory
  have hof : ∀ t ∈ targets, ∃ id ∈ valid, tbl.channelsIDM id = some t ∧ t.id = id := by
    intro t ht
    obtain ⟨id, hid, hrow⟩ := mem_filterMap.1 (mem_of_mem_filter ht)
    exact ⟨id, hid, hrow, tbl.channelsIDM_id id t hrow⟩
  have hself : ∀ t ∈ targets, tbl.channelsIDM t.id = some t := by
    intro t ht
    obtain ⟨id, -, hrow, hid⟩ := hof t ht
    rw [hid, hrow]
  refine ⟨?_, fun r hr => ?_, fun ch hch => ?_, fun ch hch => ?_⟩
  · obtain ⟨id, hid⟩ := exists_mem_of_ne_nil valid hne
    obtain ⟨row, hrow⟩ := Option.isSome_iff_exists.1 (hrows id hid)
    exact totalWeight_pos (topPriority_ne_nil (ne_nil_of_mem (mem_filterMap.2 ⟨id, hid, hrow⟩)))
  · obtain ⟨ch, hpick, heq⟩ := cachedChannel_eq hvalid hrows hr
    obtain ⟨id, hid, hrow, rfl⟩ := hof ch (pickTarget_mem hpick)
    refine ⟨ch.id, hid, ch, hrow, fun other hother ch' hrow' => ?_, (hchoice r).trans heq⟩
    exact (mem_topPriority.1 (pickTarget_mem hpick)).2 ch' (mem_filterMap.2 ⟨other, hother, hrow'⟩)
  · have hcount : (range (totalWeight targets)).countP (fun r => decide (choice r = (some ch.id, false))) =
        (range (totalWeight targets)).countP fun r => decide ((pickWeighted (smoothing targets).1
          (smoothing targets).2 targets r).map Channel.id = some ch.id) := by
      refine countP_congr fun r hr => ?_
      have hlt := mem_range.1 hr
      obtain ⟨t, hpick, heq⟩ := cachedChannel_eq hvalid hrows hlt
      rw [pickTarget_eq, Nat.mod_eq_of_lt hlt] at hpick
      rw [hchoice, heq, hpick]
      simp
    rw [hcount, totalWeight_eq]
    exact (count_pickWeighted ch.id targets).trans (filter_id_weights (hself ch hch) hself (effectiveWeight targets))
  · exact ⟨fun hzero => effectiveWeight_zero hzero hch, fun ch' hch' => effectiveWeight_proportional hch hch'⟩

def mixedTable : ChannelTable where
  memoryCacheEnabled := true
  group2model2channels _ _ := [2, 3]
  channelsIDM id := some ⟨id, 0, id - 2, 0, fun _ => 1, false⟩
  channelsIDM_id id ch h := by rw [← Option.some.inj h]
  supportsPath _ _ _ := true
  formatMatchingModelName := fun m => m
  abilities := []

theorem weighted_choice_exact_mixed :
    totalWeight (topPriority ([2, 3].filterMap mixedTable.channelsIDM)) = 100 ∧
    (List.range 100).countP (fun r => decide
      (getRandomSatisfiedChannel mixedTable { rand := r } "vip" "gpt" [] "" = (some 3, false))) = 100 := by
  have hvalid : (satisfying mixedTable "vip" "gpt" "").filter (fun id => !([] : List ℕ).contains id) = [2, 3] := by
    decide +kernel
  have hexact := weighted_choice_exact rfl hvalid (by decide) fun _ _ => rfl
  have htarget : ⟨3, 0, 1, 0, fun _ => 1, false⟩ ∈ topPriority ([2, 3].filterMap mixedTable.channelsIDM) :=
    mem_topPriority.2 ⟨by simp [mixedTable], by simp [mixedTable]⟩
  exact ⟨rfl, hexact.2.2.1 _ htarget⟩

end NewApi
