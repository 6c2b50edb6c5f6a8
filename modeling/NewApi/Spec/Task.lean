import NewApi.Spec.NewSession
import Mathlib.Logic.Function.Basic

/-!
# Asynchronous tasks

The rows of `model/task.go`, and the billing of a task in `service/task_billing.go`: a task remembers what its
submission charged, `RecalculateTaskQuota` moves the charge to the actual quota, and `RefundTaskQuota` gives it back
when the task fails. Both adjust the pool by the `BillingSource` and the `SubscriptionId` that the submission stored
(`controller/relay.go`). Logs, results and usage counters are left out.
-/

namespace NewApi

/-- The statuses; an upstream may answer any other text, also an empty one. -/
inductive TaskStatus
  | notStart | submitted | queued | inProgress | failure | success | unknown
  | other (text : String)
  deriving DecidableEq, Repr

def TaskStatus.isDone (s : TaskStatus) : Bool := decide (s = .success) || decide (s = .failure)

inductive TaskPlatform
  | midjourney
  | suno
  /-- every other platform is polled as a video platform -/
  | video (name : String)
  deriving DecidableEq, Repr

structure Task where
  id : ℕ
  taskId : String
  platform : TaskPlatform
  (userId channelId : ℕ)
  quota : ℤ
  status : TaskStatus
  failReason : String
  (submitTime startTime finishTime : ℤ)
  (progress data : String)
  /-- `PrivateData` -/
  (upstreamTaskId resultUrl : String)
  billingSource : Option BillingSource
  (subscriptionId tokenId : ℕ)
  perCallBilling : Bool
  deriving DecidableEq, Repr

/-- 2026-02-22 00:00:00 UTC. -/
def taskRefundLegacyCutoff : ℤ := 1771718400

def initTask (id : ℕ) (taskId : String) (platform : TaskPlatform) (userId channelId : ℕ)
    (upstreamTaskId data : String) (tokenId : ℕ) (perCallBilling : Bool) (now : ℤ) : Task where
  id := id
  taskId := taskId
  platform := platform
  userId := userId
  channelId := channelId
  quota := 0
  status := .notStart
  failReason := ""
  submitTime := now
  startTime := 0
  finishTime := 0
  progress := "0%"
  data := data
  upstreamTaskId := upstreamTaskId
  resultUrl := ""
  billingSource := none
  subscriptionId := 0
  tokenId := tokenId
  perCallBilling := perCallBilling

def Task.getUpstreamTaskID (t : Task) : String := if t.upstreamTaskId ≠ "" then t.upstreamTaskId else t.taskId

def Task.unfinished (t : Task) : Bool := decide (t.progress ≠ "100%") && !t.status.isDone

def Task.timedOut (cutoff : ℤ) (t : Task) : Bool := t.unfinished && decide (t.submitTime < cutoff)

abbrev TaskTable := ℕ → Option Task

inductive CasResult
  | error | lost | won
  deriving DecidableEq, Repr

/-- All columns are written if the row still has the old status. An update that changes nothing may be reported as
lost. -/
def Task.updateWithStatus (t : Task) (dbErr noop : Bool) (fromStatus : TaskStatus) (rows : TaskTable) :
    CasResult × TaskTable :=
  if dbErr then (.error, rows)
  else match rows t.id with
    | none => (.lost, rows)
    | some row =>
      if row.status ≠ fromStatus then (.lost, rows)
      else if noop = true ∧ row = t then (.lost, rows)
      else (.won, Function.update rows t.id (some t))

def Task.updateQuota (t : Task) (dbErr : Bool) (rows : TaskTable) : TaskTable :=
  if dbErr then rows
  else Function.update rows t.id ((rows t.id).map fun row => { row with quota := t.quota })

/-- `TaskBulkUpdateByID` with status `FAILURE` and progress `100%`, and a reason or none. -/
def taskBulkFail (ids : List ℕ) (reason : Option String) (rows : TaskTable) : TaskTable :=
  fun id => (rows id).map fun row =>
    if id ∈ ids then
      { row with status := .failure, progress := "100%", failReason := reason.getD row.failReason }
    else row

def taskIsSubscription (t : Task) : Bool :=
  decide (t.billingSource = some .subscription) && decide (0 < t.subscriptionId)

def taskAdjustFunding (cfg : Config) (dbErr : Bool) (t : Task) (delta : ℤ) (st : Store) : Except Err Store :=
  if taskIsSubscription t then st.postConsume dbErr t.subscriptionId delta
  else if 0 < delta then decreaseUserQuota cfg dbErr delta st
  else increaseUserQuota cfg dbErr (-delta) st

/-- A token that is gone is left alone, and an error is only logged. -/
def taskAdjustTokenQuota (cfg : Config) (env : Env) (t : Task) (delta : ℤ) (st : Store) : Store :=
  if t.tokenId = 0 ∨ delta = 0 ∨ env.readErr = true then st
  else match (if 0 < delta then decreaseTokenQuota cfg env.tokenErr delta st
      else increaseTokenQuota cfg env.tokenErr (-delta) st) with
    | .ok st' => st'
    | .error _ => st

def refundTaskQuota (cfg : Config) (env : Env) (t : Task) (st : Store) : Bool × Task × Store :=
  if t.quota = 0 then (true, t, st)
  else match taskAdjustFunding cfg env.fundingErr t (-t.quota) st with
    | .error _ => (false, t, st)
    | .ok st' => (true, { t with quota := 0 }, taskAdjustTokenQuota cfg env t (-t.quota) st')

def recalculateTaskQuota (cfg : Config) (env : Env) (t : Task) (actualQuota : ℤ) (st : Store) : Task × Store :=
  if actualQuota ≤ 0 ∨ actualQuota - t.quota = 0 then (t, st)
  else match taskAdjustFunding cfg env.fundingErr t (actualQuota - t.quota) st with
    | .error _ => (t, st)
    | .ok st' => ({ t with quota := actualQuota }, taskAdjustTokenQuota cfg env t (actualQuota - t.quota) st')

/-- What `RelayTask` does after a successful submission; the error of the settlement is only logged. -/
def submitTask (cfg : Config) (env : Env) (s : BillingSession) (t : Task) (resultQuota : ℤ) (st : Store) :
    Task × Store :=
  let r := s.settle cfg env resultQuota st
  ({ t with
    quota := resultQuota, billingSource := r.1.relayInfo.billingSource
    subscriptionId := r.1.relayInfo.subscriptionId }, r.2.1)

def recalculateAll (cfg : Config) : List (Env × ℤ) → Task × Store → Task × Store
  | [], p => p
  | (env, actualQuota) :: rest, (t, st) => recalculateAll cfg rest (recalculateTaskQuota cfg env t actualQuota st)

end NewApi
