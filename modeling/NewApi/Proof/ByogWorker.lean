import Mathlib.Algebra.Order.BigOperators.Group.List
import NewApi.Spec.ByogWorker

/-!
# What a worker gives and reports

The allocations of the partitions are numbers of Go's type `int`, and their sum is taken of those of type `float64`: it
is zero. A report of an earlier attempt is taken for a new one.
-/

namespace NewApi

open List

section Disks

variable (free : ℕ → ℚ)

theorem exchange_perm (first : ℕ) (rest : List ℕ) :
    (exchange free first rest).1 :: (exchange free first rest).2 ~ first :: rest := by
  induction rest generalizing first with
  | nil => rfl
  | cons next rest ih =>
    rw [exchange]
    split_ifs with hless
    · exact (Perm.swap ..).trans ((ih next).cons first)
    · exact (Perm.swap ..).trans (((ih first).cons next).trans (Perm.swap ..))

theorem exchangeSort_perm (n : ℕ) (order : List ℕ) : exchangeSort free n order ~ order := by
  induction n generalizing order with
  | zero => rfl
  | succ n ih =>
    cases order with
    | nil => rfl
    | cons first rest => exact ((ih _).cons _).trans (exchange_perm free first rest)

theorem intOfFloat_eq {x : ℚ} (hx : 0 ≤ x) (hlt : x < 2 ^ 63) : intOfFloat x = ⌊x⌋ := by
  have hfloor : ⌊x⌋ < 2 ^ 63 := Int.floor_lt.2 (by exact_mod_cast hlt)
  have hnonneg := Int.floor_nonneg.2 hx
  simp only [intOfFloat, if_neg (not_lt.2 hx)]
  rw [if_pos ⟨by omega, hfloor⟩]

variable {free} {remaining : ℤ}

theorem diskAllocation_eq (hremaining : 0 ≤ remaining) {x : ℚ} (hx : x < 2 ^ 63) :
    diskAllocation x remaining = min remaining (max 0 ⌊x⌋) := by
  rcases le_or_gt x 0 with hneg | hpos
  · have hfloor : ⌊x⌋ ≤ 0 := by simpa using Int.floor_mono hneg
    simp only [diskAllocation, if_pos hneg]
    split_ifs <;> omega
  · have hfloor : 0 ≤ ⌊x⌋ := Int.floor_nonneg.2 hpos.le
    simp only [diskAllocation, if_neg (not_le.2 hpos), intOfFloat_eq hpos.le hx]
    split_ifs <;> omega

/-- What is left over is a number of the same range. -/
theorem remaining_eq (h : 0 ≤ remaining) (hint : remaining < 2 ^ 63) {x : ℚ} (hx : x < 2 ^ 63) :
    (remaining - diskAllocation x remaining).bmod (2 ^ 64) = remaining - min remaining (max 0 ⌊x⌋) := by
  rw [diskAllocation_eq h hx]
  exact Int.bmod_eq_of_le (by omega) (by omega)

theorem allocateDisks_bounds (hfree : ∀ i, free i < 2 ^ 63) (h : 0 ≤ remaining) (hint : remaining < 2 ^ 63)
    (order : List ℕ) (i : ℕ) :
    0 ≤ allocateDisks free order remaining i ∧ allocateDisks free order remaining i ≤ max 0 ⌊free i⌋ := by
  induction order generalizing remaining with
  | nil => simp [allocateDisks]
  | cons index order ih =>
    rw [allocateDisks, remaining_eq h hint (hfree index)]
    by_cases hi : i = index
    · subst hi
      rw [Function.update_self, diskAllocation_eq h (hfree i)]
      omega
    · rw [Function.update_of_ne hi]
      exact ih (by omega) (by omega)

theorem allocateDisks_sum (hfree : ∀ i, free i < 2 ^ 63) (h : 0 ≤ remaining) (hint : remaining < 2 ^ 63)
    {order : List ℕ} (hnodup : order.Nodup) :
    (order.map (allocateDisks free order remaining)).sum = min remaining (order.map fun i => max 0 ⌊free i⌋).sum := by
  induction order generalizing remaining with
  | nil => simp [h]
  | cons index order ih =>
    obtain ⟨hfresh, hnodup⟩ := nodup_cons.1 hnodup
    have hrest (rest allocation : ℤ) : order.map (Function.update (allocateDisks free order rest) index allocation) =
        order.map (allocateDisks free order rest) :=
      map_congr_left fun i hi => Function.update_of_ne (ne_of_mem_of_not_mem hi hfresh) _ _
    have hnonneg : 0 ≤ (order.map fun i => max 0 ⌊free i⌋).sum := sum_nonneg (by simp)
    rw [map_cons, map_cons, sum_cons, sum_cons, allocateDisks, Function.update_self, hrest,
      remaining_eq h hint (hfree index), ih (by omega) (by omega) hnodup, diskAllocation_eq h (hfree index)]
    omega

theorem allocateDisks_zero (order : List ℕ) (i : ℕ) : allocateDisks free order 0 i = 0 := by
  induction order with
  | nil => rfl
  | cons index order ih =>
    have hnone : diskAllocation (free index) 0 = 0 := by simp [diskAllocation]
    rw [allocateDisks, hnone]
    by_cases hi : i = index
    · rw [hi, Function.update_self]
    · rw [Function.update_of_ne hi]
      exact ih

end Disks

/-- What a partition can give -/
def DiskPartition.given (disk : DiskPartition) : ℤ := max 0 ⌊asFloat64 disk.free_gb⌋

/-- The allocations `a` are in the bounds of the partitions, and all that is asked for or there is. -/
def Distributed (disks : List DiskPartition) (totalGB : ℤ) (a : ℕ → ℤ) : Prop :=
  (∀ i disk, disks[i]? = some disk → 0 ≤ a i ∧ a i ≤ disk.given) ∧
    ((range disks.length).map a).sum = min totalGB (disks.map DiskPartition.given).sum

section Distribute

variable {disks : List DiskPartition} {totalGB : ℤ}

theorem allocateDisks_distributed (htotal : 0 ≤ totalGB) (hint : totalGB < 2 ^ 63)
    (hfree : ∀ disk ∈ disks, asFloat64 disk.free_gb < 2 ^ 63) :
    let free (i : ℕ) := asFloat64 (disks[i]?.bind DiskPartition.free_gb)
    Distributed disks totalGB (allocateDisks free (exchangeSort free disks.length (range disks.length)) totalGB) := by
  intro free
  have hall (i : ℕ) : free i < 2 ^ 63 := by
    cases hdisk : disks[i]? with
    | none => simp [free, hdisk, asFloat64]
    | some disk => simpa [free, hdisk] using hfree disk (mem_of_getElem? hdisk)
  have horder : exchangeSort free disks.length (range disks.length) ~ range disks.length := exchangeSort_perm ..
  have hgiven : (range disks.length).map (fun i => max 0 ⌊free i⌋) = disks.map DiskPartition.given := by
    refine ext_getElem (by simp) fun i h h' => ?_
    have hi : i < disks.length := by simpa using h'
    simp [free, DiskPartition.given, hi]
  refine ⟨fun i disk hdisk => ?_, ?_⟩
  · simpa [DiskPartition.given, free, hdisk] using allocateDisks_bounds hall htotal hint _ i
  · rw [← (horder.map _).sum_eq, allocateDisks_sum hall htotal hint (horder.nodup_iff.2 nodup_range),
      (horder.map _).sum_eq, hgiven]

theorem distributeDiskAllocation_snd (hdisks : disks ≠ []) : (distributeDiskAllocation disks totalGB).2 = 0 := by
  simp only [distributeDiskAllocation, if_neg hdisks]
  refine sum_eq_zero fun x hx => ?_
  obtain ⟨disk, hdisk, rfl⟩ := mem_map.1 hx
  obtain ⟨i, hi, rfl⟩ := mem_mapIdx.1 hdisk
  exact (by decide +kernel : intOfFloat 0 = 0)

end Distribute

/-- **The partitions get what there is** if none has 2^63 free gigabytes, and the amount that is returned is their sum
exactly if it is zero. -/
theorem disk_space_shared (disks : List DiskPartition) (totalGB : ℤ) (htotal : 0 ≤ totalGB) (hint : totalGB < 2 ^ 63) :
    let r := distributeDiskAllocation disks totalGB
    ∃ a : ℕ → ℤ, r.1 = disks.mapIdx (fun i disk => { disk with allocated_gb := some (.int (a i)) }) ∧
      ((∀ disk ∈ disks, asFloat64 disk.free_gb < 2 ^ 63) → Distributed disks totalGB a) ∧
      (Distributed disks totalGB a ∧ r.2 = ((range disks.length).map a).sum ↔
        if disks = [] then totalGB = 0 else min totalGB (disks.map DiskPartition.given).sum = 0) := by
  intro r
  by_cases hempty : disks = []
  · subst hempty
    have hnone : Distributed [] totalGB fun _ => 0 := ⟨nofun, by simp [htotal]⟩
    exact ⟨fun _ => 0, rfl, fun _ => hnone, by simp [r, distributeDiskAllocation, hnone]⟩
  let free (i : ℕ) := asFloat64 (disks[i]?.bind DiskPartition.free_gb)
  let order := exchangeSort free disks.length (range disks.length)
  have hdistributed (hfree : ∀ disk ∈ disks, asFloat64 disk.free_gb < 2 ^ 63) :=
    allocateDisks_distributed htotal hint hfree
  refine ⟨allocateDisks free order totalGB, by simp [r, distributeDiskAllocation, hempty, htotal, order, free],
    hdistributed, ?_⟩
  rw [if_neg hempty, show r.2 = 0 from distributeDiskAllocation_snd hempty]
  refine ⟨fun h => h.1.2.symm.trans h.2.symm, fun hzero => ?_⟩
  have hshared : Distributed disks totalGB (allocateDisks free order totalGB) := by
    have hnonneg : ∀ x ∈ disks.map DiskPartition.given, 0 ≤ x := by simp [DiskPartition.given]
    rcases eq_or_ne totalGB 0 with rfl | hpos
    · refine ⟨fun i disk _ => ?_, ?_⟩
      · rw [allocateDisks_zero]
        exact ⟨le_rfl, le_max_left _ _⟩
      · rw [hzero]
        exact sum_eq_zero fun x hx => by obtain ⟨i, -, rfl⟩ := mem_map.1 hx; exact allocateDisks_zero _ i
    · -- nothing is free, so nothing is out of range
      have hsum : (disks.map DiskPartition.given).sum = 0 := by
        have := sum_nonneg hnonneg
        omega
      refine hdistributed fun disk hdisk => ?_
      have hle := single_le_sum hnonneg _ (mem_map_of_mem hdisk)
      rw [hsum, DiskPartition.given] at hle
      have hfloor : ⌊asFloat64 disk.free_gb⌋ < 1 := by omega
      calc asFloat64 disk.free_gb < 1 := by simpa using Int.floor_lt.1 hfloor
        _ < 2 ^ 63 := by norm_num
  exact ⟨hshared, by rw [hshared.2, hzero]⟩

/-- Partitions with 10 and 3 free gigabytes, of which 4 and then none are asked for -/
theorem disk_space_shared_two :
    let disks : List DiskPartition := [⟨some (.float64 10), none⟩, ⟨some (.float64 3), none⟩]
    (∃ a : ℕ → ℤ, ((range 2).map a).sum = 4) ∧
      ∃ a : ℕ → ℤ, (distributeDiskAllocation disks 0).2 = ((range 2).map a).sum := by
  intro disks
  have hfree : ∀ disk ∈ disks, asFloat64 disk.free_gb < 2 ^ 63 := by decide +kernel
  obtain ⟨a, -, hshared, -⟩ := disk_space_shared disks 4 (by decide) (by decide)
  obtain ⟨b, -, -, hreturned⟩ := disk_space_shared disks 0 (by decide) (by decide)
  exact ⟨⟨a, (hshared hfree).2.trans (by decide +kernel)⟩, ⟨b, (hreturned.2 (by decide +kernel)).2⟩⟩

/-- Four of ten free gigabytes are allocated, and zero is returned. -/
theorem shared_disk_space_zero : distributeDiskAllocation [⟨some (.float64 10), none⟩] 4 =
    ([⟨some (.float64 10), some (.int 4)⟩], 0) := by
  decide +kernel

namespace NodeDownload

variable {node : NodeDownload} {t : DownloadTelemetry}

/-- The model and the attempt that a record is about -/
def current (node : NodeDownload) : String × ℤ := (node.downloadModelId, node.downloadStartedAt)

/-- The progress is a percentage. -/
def InRange (node : NodeDownload) : Prop := 0 ≤ node.downloadProgress ∧ node.downloadProgress ≤ 100

theorem attempt_startedAt (node : NodeDownload) (hpos : 0 < t.startedAt) :
    (node.attempt t).downloadStartedAt = t.startedAt := by
  simp only [attempt]
  split_ifs <;> simp_all

theorem attempt_cases (node : NodeDownload) (t : DownloadTelemetry) : node.attempt t = node ∨
    (node.attempt t).downloadProgress = 0 ∧ (node.attempt t).current ≠ node.current := by
  by_cases hmodel : t.modelId ≠ "" ∧ node.downloadModelId ≠ t.modelId
  · have hmoved : (node.attempt t).downloadProgress = 0 ∧ (node.attempt t).downloadModelId = t.modelId := by
      simp only [attempt, if_pos hmodel]
      split_ifs <;> exact ⟨rfl, rfl⟩
    exact .inr ⟨hmoved.1, fun heq => hmodel.2 ((congrArg Prod.fst heq).symm.trans hmoved.2)⟩
  · simp only [attempt, if_neg hmodel]
    split_ifs with hattempt
    · exact .inr ⟨rfl, fun heq => hattempt.2 (congrArg Prod.snd heq).symm⟩
    · exact .inl rfl

theorem numbers_spec (h : node.InRange) (percent : ℤ → ℤ → ℤ) (t : DownloadTelemetry) :
    (node.numbers percent t).InRange ∧ node.downloadProgress ≤ (node.numbers percent t).downloadProgress ∧
      (0 ≤ t.downloadedMB → node.downloadedMB ≤ (node.numbers percent t).downloadedMB) := by
  unfold InRange at h ⊢
  simp only [numbers]
  refine ⟨?_, ?_, fun ht => ?_⟩ <;> split_ifs <;> omega

/-- The progress is in its range, and has not gone back within an attempt. -/
def Advanced (node node' : NodeDownload) : Prop :=
  node'.InRange ∧ (node'.current = node.current →
    node.downloadProgress ≤ node'.downloadProgress ∧ node.downloadedMB ≤ node'.downloadedMB)

theorem advanced_apply (h : node.InRange) (percent : ℤ → ℤ → ℤ) (ht : 0 ≤ t.downloadedMB) :
    node.Advanced (node.applyDownloadTelemetry percent t) := by
  have hfull : (0 : ℤ) ≤ 100 ∧ (100 : ℤ) ≤ 100 := by decide
  have hnext : node.Advanced (((node.statuses t).attempt t).numbers percent t) := by
    rcases attempt_cases (node.statuses t) t with hsame | ⟨hzero, hother⟩
    · rw [hsame]
      obtain ⟨hrange, hprogress, hsize⟩ := numbers_spec h percent t
      exact ⟨hrange, fun _ => ⟨hprogress, hsize ht⟩⟩
    · have hstart : ((node.statuses t).attempt t).InRange := by simp [InRange, hzero]
      exact ⟨(numbers_spec hstart percent t).1, fun heq => absurd heq hother⟩
  simp only [applyDownloadTelemetry]
  split_ifs
  · exact ⟨hfull, fun _ => ⟨h.2, le_rfl⟩⟩
  · exact ⟨h, fun _ => ⟨le_rfl, le_rfl⟩⟩
  · exact ⟨hfull, fun heq => ⟨h.2, (hnext.2 heq).2⟩⟩
  · exact hnext

theorem received_spec (percent : ℤ → ℤ → ℤ) {ts : List DownloadTelemetry} (h : node.InRange)
    (hts : ∀ t ∈ ts, 0 ≤ t.downloadedMB) : (node.received percent ts).InRange ∧
      ((∀ mid, mid <+: ts → (node.received percent mid).current = node.current) →
        node.downloadProgress ≤ (node.received percent ts).downloadProgress ∧
          node.downloadedMB ≤ (node.received percent ts).downloadedMB) := by
  induction ts generalizing node with
  | nil => exact ⟨h, fun _ => ⟨le_rfl, le_rfl⟩⟩
  | cons t ts ih =>
    obtain ⟨ht, hts⟩ := forall_mem_cons.1 hts
    obtain ⟨hrange, hstep⟩ := advanced_apply h percent ht
    obtain ⟨hlast, hrest⟩ := ih hrange hts
    refine ⟨hlast, fun hsame => ?_⟩
    have hfirst := hsame [t] (cons_prefix_cons.2 ⟨rfl, nil_prefix⟩)
    have hle := hrest fun mid hmid => (hsame (t :: mid) (cons_prefix_cons.2 ⟨rfl, hmid⟩)).trans hfirst.symm
    exact ⟨(hstep hfirst).1.trans hle.1, (hstep hfirst).2.trans hle.2⟩

/-- **Late reports.** In every run of reports without negative sizes the progress stays in its range, and does not go
back as long as the attempt stays the same. A report of an earlier attempt changes nothing only if it has no numbers. -/
theorem download_reports (percent : ℤ → ℤ → ℤ) (start : NodeDownload) (before after : List DownloadTelemetry)
    (hrange : start.InRange) (hsizes : ∀ t ∈ before ++ after, 0 ≤ t.downloadedMB) :
    let node := start.received percent before
    let node' := node.received percent after
    node'.InRange ∧ ((∀ mid, mid <+: after → (node.received percent mid).current = node.current) →
        node.downloadProgress ≤ node'.downloadProgress ∧ node.downloadedMB ≤ node'.downloadedMB) ∧
      ∀ t, t.modelId = node.downloadModelId → 0 < t.startedAt → t.startedAt < node.downloadStartedAt →
        let late := node.applyDownloadTelemetry percent t
        ((late.downloadStartedAt = node.downloadStartedAt ∧ late.downloadProgress = node.downloadProgress ∧
          late.downloadedMB = node.downloadedMB) ↔
          t.hasProgress = false ∧ ((node.statuses t).modelStatus = "ready" → node.downloadModelId ≠ "" →
            node.downloadProgress = 100)) := by
  intro node node'
  obtain ⟨hbefore, hafter⟩ := forall_mem_append.1 hsizes
  obtain ⟨hlast, hkept⟩ := received_spec percent (received_spec percent hrange hbefore).1 hafter
  refine ⟨hlast, hkept, fun t _ hpos hlate => ?_⟩
  have hmoved := attempt_startedAt (node.statuses t) hpos
  simp only [applyDownloadTelemetry]
  split_ifs with hnone hready
  · exact ⟨fun heq => ⟨hnone, fun _ _ => heq.2.1.symm⟩, fun hfull => ⟨rfl, (hfull.2 hready.1 hready.2).symm, rfl⟩⟩
  · exact ⟨fun _ => ⟨hnone, fun hr hm => absurd ⟨hr, hm⟩ hready⟩, fun _ => ⟨rfl, rfl, rfl⟩⟩
  all_goals exact iff_of_false (fun heq => hlate.ne (hmoved.symm.trans heq.1)) fun hfull => hnone hfull.1

def halfDownloaded : NodeDownload := ⟨"", "", "", "m", 10, 50, 5, 10, 0, 0⟩

def lateReport (hasProgress : Bool) : DownloadTelemetry := ⟨"m", 4, hasProgress, 2, 10, 20, 0, 0, "", "", ""⟩

/-- A report of the current attempt, and then a late one without numbers -/
theorem download_reports_without_numbers :
    let next : DownloadTelemetry := { lateReport true with startedAt := 10, downloadedMB := 6, progress := 60 }
    let node := halfDownloaded.received (fun _ _ => 0) [next]
    50 ≤ node.downloadProgress ∧
      (node.applyDownloadTelemetry (fun _ _ => 0) (lateReport false)).downloadProgress = node.downloadProgress := by
  intro next node
  have hkept := (download_reports (fun _ _ => 0) halfDownloaded [] [next] ⟨by decide, by decide⟩ (by decide)).2.1
  have hlate := (download_reports (fun _ _ => 0) halfDownloaded [next] [] ⟨by decide, by decide⟩ (by decide)).2.2
    (lateReport false) rfl (by decide) (by decide)
  refine ⟨(hkept fun mid hmid => ?_).1, (hlate.2 (by decide)).2.1⟩
  rcases prefix_cons_iff.1 hmid with rfl | ⟨rest, rfl, hrest⟩
  · rfl
  · rw [prefix_nil.1 hrest]
    rfl

/-- The progress of 50 percent goes back to 20. -/
theorem late_report_taken :
    let node := halfDownloaded.applyDownloadTelemetry (fun _ _ => 0) (lateReport true)
    (node.downloadStartedAt, node.downloadProgress, node.downloadedMB) = (4, 20, 2) := by
  decide

end NodeDownload

end NewApi
