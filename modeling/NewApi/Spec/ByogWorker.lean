import Mathlib.Data.Rat.Floor

/-!
# Disks and downloads of a worker

`controller/byog.go` and `model/byog.go`: the space that a node gives is shared between its partitions, and the reports
of a download are merged into its record.
-/

namespace NewApi

/-- A number in a `map[string]interface{}` -/
inductive GoNumber
  | int (n : ℤ) | float64 (x : ℚ)
  deriving DecidableEq

/-- `value, _ := v.(float64)` -/
def asFloat64 : Option GoNumber → ℚ
  | some (.float64 x) => x
  | _ => 0

/-- A partition of the report, as far as the allocation reads and writes it -/
structure DiskPartition where
  (free_gb allocated_gb : Option GoNumber := none)
  deriving DecidableEq

/-- The inner loop, for the place that `first` is in and those behind it. -/
def exchange (free : ℕ → ℚ) (first : ℕ) : List ℕ → ℕ × List ℕ
  | [] => (first, [])
  | next :: rest =>
    let (first, next) := if free next < free first then (next, first) else (first, next)
    let r := exchange free first rest
    (r.1, next :: r.2)

/-- The outer loop: places up to `n` get their partition. -/
def exchangeSort (free : ℕ → ℚ) : ℕ → List ℕ → List ℕ
  | n + 1, first :: rest =>
    let r := exchange free first rest
    r.1 :: exchangeSort free n r.2
  | _, order => order

/-- `int(x)` of a `float64`, as amd64 computes it -/
def intOfFloat (x : ℚ) : ℤ :=
  let n := if x < 0 then ⌈x⌉ else ⌊x⌋
  if -2 ^ 63 ≤ n ∧ n < 2 ^ 63 then n else -2 ^ 63

/-- The allocation of one partition -/
def diskAllocation (free : ℚ) (remaining : ℤ) : ℤ :=
  let allocation := if remaining ≤ 0 then 0 else if free ≤ 0 then 0
    else if intOfFloat free ≥ remaining then remaining else intOfFloat free
  if allocation > remaining then remaining else allocation

/-- The loop over the partitions. The difference wraps around. -/
def allocateDisks (free : ℕ → ℚ) : List ℕ → ℤ → ℕ → ℤ
  | [], _ => fun _ => 0
  | index :: order, remaining =>
    let allocation := diskAllocation (free index) remaining
    Function.update (allocateDisks free order ((remaining - allocation).bmod (2 ^ 64))) index allocation

/-- The returned amount is summed over the allocations of type `float64`. -/
def distributeDiskAllocation (disks : List DiskPartition) (totalGB : ℤ) : List DiskPartition × ℤ :=
  if disks = [] then (disks, totalGB)
  else
    let free i := asFloat64 (disks[i]?.bind DiskPartition.free_gb)
    let order := exchangeSort free disks.length (List.range disks.length)
    let allocated := allocateDisks free order (max totalGB 0)
    let disks := disks.mapIdx fun i disk => { disk with allocated_gb := some (.int (allocated i)) }
    (disks, (disks.map fun disk => intOfFloat (asFloat64 disk.allocated_gb)).sum)

/-- What a `ByogNode` records of a download -/
structure NodeDownload where
  (modelStatus downloadStatus downloadQueue downloadModelId : String)
  (downloadStartedAt downloadProgress downloadedMB totalMB etaSeconds : ℤ)
  downloadSpeedBps : ℚ
  deriving DecidableEq

structure DownloadTelemetry where
  modelId : String
  startedAt : ℤ
  hasProgress : Bool
  (downloadedMB totalMB progress : ℤ)
  speedBps : ℚ
  etaSeconds : ℤ
  (modelStatus downloadStatus queueJSON : String)

namespace NodeDownload

def finished (node : NodeDownload) : NodeDownload :=
  { node with downloadProgress := 100, downloadSpeedBps := 0, etaSeconds := 0 }

def statuses (node : NodeDownload) (t : DownloadTelemetry) : NodeDownload :=
  { node with
    modelStatus := if t.modelStatus ≠ "" then t.modelStatus else node.modelStatus
    downloadStatus := if t.downloadStatus ≠ "" then t.downloadStatus else node.downloadStatus
    downloadQueue := if t.queueJSON ≠ "" then t.queueJSON else node.downloadQueue }

/-- A new model, and then a new attempt, start the progress again. -/
def attempt (node : NodeDownload) (t : DownloadTelemetry) : NodeDownload :=
  let node := if t.modelId ≠ "" ∧ node.downloadModelId ≠ t.modelId then
      { node with
        downloadModelId := t.modelId, downloadProgress := 0, downloadedMB := 0
        downloadStartedAt := if t.startedAt > 0 then t.startedAt else node.downloadStartedAt }
    else node
  if t.startedAt > 0 ∧ node.downloadStartedAt ≠ t.startedAt then
    { node with downloadStartedAt := t.startedAt, downloadProgress := 0, downloadedMB := 0 }
  else node

/-- The numbers of a report; `percent` is the quotient of two floating-point numbers. -/
def numbers (percent : ℤ → ℤ → ℤ) (node : NodeDownload) (t : DownloadTelemetry) : NodeDownload :=
  let totalMB := if t.totalMB > 0 then t.totalMB else node.totalMB
  let downloadedMB := if t.downloadedMB ≥ node.downloadedMB ∨ node.downloadedMB ≤ 0 then t.downloadedMB
    else node.downloadedMB
  let progress := if t.progress ≤ 0 ∧ totalMB > 0 ∧ downloadedMB > 0 then percent downloadedMB totalMB else t.progress
  let progress := if progress > node.downloadProgress ∨ node.downloadProgress ≤ 0 then progress
    else node.downloadProgress
  let progress := if progress < 0 then 0 else progress
  { node with
    totalMB, downloadedMB, downloadProgress := if progress > 100 then 100 else progress
    downloadSpeedBps := t.speedBps, etaSeconds := t.etaSeconds }

def applyDownloadTelemetry (percent : ℤ → ℤ → ℤ) (node : NodeDownload) (t : DownloadTelemetry) : NodeDownload :=
  let node := node.statuses t
  if t.hasProgress = false then if node.modelStatus = "ready" ∧ node.downloadModelId ≠ "" then node.finished else node
  else
    let node := (node.attempt t).numbers percent t
    if node.modelStatus = "ready" ∧ t.modelId = "" then node.finished else node

def received (percent : ℤ → ℤ → ℤ) (node : NodeDownload) (ts : List DownloadTelemetry) : NodeDownload :=
  ts.foldl (applyDownloadTelemetry percent) node

end NodeDownload

end NewApi
