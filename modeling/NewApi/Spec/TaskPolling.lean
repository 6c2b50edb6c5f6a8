import NewApi.Spec.Task
import NewApi.Spec.Wss

/-!
# Polling the tasks

`service/task_polling.go`: `RunTaskPollingOnce` reads unfinished rows into memory, asks the upstreams about them, and
writes each copy back with a compare-and-swap on the status the copy had. The billing call that a won update asks for
is a step of its own: other nodes may run in between.

A node keeps the tasks of its pass in `tasks`, and what `sweepTimedOutTasks` still has to go through in `timedOut`.
The order of platforms and channels is left open, and so is how often an upstream answers about one task.
-/

namespace NewApi

structure PollSetting where
  taskTimeoutMinutes : ℤ
  serverAddress : String

structure Cas where
  dbErr : Bool := false
  /-- an update that changes nothing is reported as no row affected -/
  noop : Bool := false
  deriving DecidableEq, Repr

structure TaskInfo where
  status : TaskStatus
  reason : String := ""
  url : String := ""
  progress : String := ""
  totalTokens : ℤ := 0
  deriving DecidableEq, Repr

/-- The billing call an update asks for: `RefundTaskQuota`, or `settleTaskBillingOnComplete`
with the upstream's answer. -/
inductive Bill
  | refund
  | settle (info : TaskInfo)
  deriving DecidableEq, Repr

structure Outcome where
  task : Task
  rows : TaskTable
  bill : Option Bill

def Task.isLegacy (t : Task) : Bool := decide (0 < t.submitTime) && decide (t.submitTime < taskRefundLegacyCutoff)

def timedOutTask (ps : PollSetting) (now : ℤ) (t : Task) : Task :=
  { t with
    status := .failure, progress := "100%", finishTime := now
    failReason :=
      if t.isLegacy then "任务超时（旧系统遗留任务，不进行退款，请联系管理员）"
      else "任务超时（" ++ toString ps.taskTimeoutMinutes ++ "分钟）"
    quota := if t.isLegacy then 0 else t.quota }

def sweepTimedOutTask (ps : PollSetting) (now : ℤ) (cas : Cas) (t : Task) (rows : TaskTable) : Outcome :=
  let t' := timedOutTask ps now t
  match t'.updateWithStatus cas.dbErr cas.noop t.status rows with
  | (.won, rows') => ⟨t', rows', if !t.isLegacy && decide (t'.quota ≠ 0) then some .refund else none⟩
  -- a lost or failed update leaves the new values in the copy
  | (_, rows') => ⟨t', rows', none⟩

/-- `SunoDataResponse`; a missing status is the empty text. -/
structure SunoItem where
  taskId : String
  status : TaskStatus
  failReason : String := ""
  submitTime : ℤ := 0
  startTime : ℤ := 0
  finishTime : ℤ := 0
  data : String := ""
  deriving DecidableEq, Repr

/-- The data are compared with their bytes sorted. -/
def taskNeedsUpdate (t : Task) (item : SunoItem) : Bool :=
  decide (t.submitTime ≠ item.submitTime) || decide (t.startTime ≠ item.startTime) ||
  decide (t.finishTime ≠ item.finishTime) || decide (t.status ≠ item.status) ||
  decide (t.failReason ≠ item.failReason) ||
  (t.status.isDone && decide (t.progress ≠ "100%")) || !t.data.toList.isPerm item.data.toList

/-- The status that an item gives a task, before a fail reason overrides it. -/
def SunoItem.statusFor (item : SunoItem) (t : Task) : TaskStatus :=
  if item.status ≠ .other "" then item.status else t.status

def SunoItem.isFailure (item : SunoItem) (t : Task) : Bool :=
  decide (item.failReason ≠ "") || decide (item.statusFor t = .failure)

def SunoItem.apply (item : SunoItem) (t : Task) : Task :=
  { t with
    status := if item.isFailure t then .failure else item.statusFor t
    failReason := if item.failReason ≠ "" then item.failReason else t.failReason
    submitTime := if item.submitTime ≠ 0 then item.submitTime else t.submitTime
    startTime := if item.startTime ≠ 0 then item.startTime else t.startTime
    finishTime := if item.finishTime ≠ 0 then item.finishTime else t.finishTime
    -- an open status keeps the progress that the copy has
    progress := if item.isFailure t || decide (item.status = .success) then "100%" else t.progress
    data := item.data }

def updateSunoTask (cas : Cas) (item : SunoItem) (t : Task) (rows : TaskTable) : Outcome :=
  if !taskNeedsUpdate t item then ⟨t, rows, none⟩
  else
    let t' := item.apply t
    match t'.updateWithStatus cas.dbErr cas.noop t.status rows with
    | (.won, rows') =>
      ⟨t', rows', if item.isFailure t && decide (t.status ≠ .failure) && decide (t'.quota ≠ 0) then
        some .refund else none⟩
    | (_, rows') => ⟨t', rows', none⟩

/-- What the body of an answer is when it is read as a `GeneralErrorResponse`. -/
inductive ErrorBody
  | undecodable
  /-- an error with code `429` -/
  | rateLimited | openAIError | unrecognized
  deriving DecidableEq, Repr

/-- The upstream's answer about a task: the request, its body or its parsing failed, or a result
with the body it came in. -/
inductive VideoAnswer
  | failed
  | result (info : TaskInfo) (body : ErrorBody) (data : String)
  deriving DecidableEq, Repr

def failTaskInfo (reason : String) : TaskInfo := { status := .failure, reason := reason }

/-- An answer without a status is looked at again as an error; `none` for a rate limit. -/
def TaskInfo.orError (info : TaskInfo) (body : ErrorBody) : Option TaskInfo :=
  if info.status ≠ .other "" then some info
  else match body with
    | .undecodable => some info
    | .rateLimited => none
    | .openAIError => some (failTaskInfo "upstream returned error")
    | .unrecognized => some (failTaskInfo "upstream returned unrecognized message")

def PollSetting.buildProxyURL (ps : PollSetting) (taskId : String) : String :=
  ps.serverAddress ++ "/v1/videos/" ++ taskId ++ "/content"

def TaskInfo.resultURL (ps : PollSetting) (info : TaskInfo) (t : Task) : String :=
  if "data:".toList.isPrefixOf info.url.toList then ps.buildProxyURL t.taskId
  else if info.url ≠ "" then info.url
  else ps.buildProxyURL t.taskId

def TaskInfo.progressOr (info : TaskInfo) (progress : String) : String :=
  if info.progress ≠ "" then info.progress else progress

def TaskInfo.apply (ps : PollSetting) (now : ℤ) (info : TaskInfo) (t : Task) : Option Task :=
  match info.status with
  | .submitted => some { t with status := .submitted, progress := info.progressOr "10%" }
  | .queued => some { t with status := .queued, progress := info.progressOr "20%" }
  | .inProgress => some { t with
      status := .inProgress, progress := info.progressOr "30%"
      startTime := if t.startTime = 0 then now else t.startTime }
  | .success => some { t with
      status := .success, progress := info.progressOr "100%"
      finishTime := if t.finishTime = 0 then now else t.finishTime
      resultUrl := info.resultURL ps t }
  | .failure => some { t with
      status := .failure, progress := "100%"
      finishTime := if t.finishTime = 0 then now else t.finishTime
      failReason := info.reason }
  | _ => none

def TaskInfo.bill (info : TaskInfo) (t : Task) : Option Bill :=
  match info.status with
  | .success => some (.settle info)
  | .failure => if t.quota ≠ 0 then some .refund else none
  | _ => none

def Task.sameSnapshot (t t' : Task) : Bool :=
  decide (t.status = t'.status) && decide (t.progress = t'.progress) &&
  decide (t.startTime = t'.startTime) && decide (t.finishTime = t'.finishTime) &&
  decide (t.failReason = t'.failReason) && decide (t.resultUrl = t'.resultUrl) &&
  decide (t.data = t'.data)

/-- The write of `updateVideoSingleTask`. Only a change to a terminal status waits for a won update. -/
def writeVideoTask (cas : Cas) (t t' : Task) (bill : Option Bill) (rows : TaskTable) : Outcome :=
  if t'.status.isDone && decide (t.status ≠ t'.status) then
    match t'.updateWithStatus cas.dbErr cas.noop t.status rows with
    | (.won, rows') => ⟨t', rows', bill⟩
    | (_, rows') => ⟨t', rows', none⟩
  else if !t.sameSnapshot t' then ⟨t', (t'.updateWithStatus cas.dbErr cas.noop t.status rows).2, bill⟩
  else ⟨t', rows, bill⟩

/-- `updateVideoSingleTask`, from the upstream's answer on. A status it does not know is an error,
but stays in memory. -/
def updateVideoSingleTask (ps : PollSetting) (now : ℤ) (cas : Cas) (answer : VideoAnswer) (t : Task)
    (rows : TaskTable) : Outcome :=
  match answer with
  | .failed => ⟨t, rows, none⟩
  | .result info body data =>
    match info.orError body with
    -- the rate limit is tried again in the next pass
    | none => ⟨{ t with data := data }, rows, none⟩
    | some info =>
      match info.apply ps now { t with data := data } with
      | none => ⟨{ t with data := data, status := info.status }, rows, none⟩
      | some t' => writeVideoTask cas t t' (info.bill t) rows

/-- What `RecalculateTaskQuotaByTokens` looks up. -/
structure TaskRates where
  (modelRatio groupRatio : Option ℚ)
  otherMultiplier : ℚ

/-- `QuotaFromFloatChecked` cuts the fraction off. -/
def quotaFromFloat (value : ℚ) : ℤ := (saturateQuota (value.num.tdiv value.den)).1

def recalculateTaskQuotaByTokens (cfg : Config) (env : Env) (rates : TaskRates) (t : Task)
    (totalTokens : ℤ) (st : Store) : Task × Store :=
  match rates.modelRatio, rates.groupRatio with
  | some modelRatio, some groupRatio =>
    if totalTokens ≤ 0 ∨ modelRatio ≤ 0 then (t, st)
    else recalculateTaskQuota cfg env t
      (quotaFromFloat (totalTokens * modelRatio * groupRatio * rates.otherMultiplier)) st
  | _, _ => (t, st)

/-- `settleTaskBillingOnComplete`; `adjusted` is the answer of the adaptor's
`AdjustBillingOnComplete`. -/
def settleTaskBillingOnComplete (cfg : Config) (env : Env) (rates : TaskRates) (adjusted : ℤ) (t : Task)
    (info : TaskInfo) (st : Store) : Task × Store :=
  if t.perCallBilling then (t, st)
  else if 0 < adjusted then recalculateTaskQuota cfg env t adjusted st
  else if 0 < info.totalTokens then recalculateTaskQuotaByTokens cfg env rates t info.totalTokens st
  else (t, st)

structure BillEnv where
  env : Env
  rates : TaskRates
  adjusted : ℤ
  /-- `UpdateQuota` fails -/
  rowErr : Bool

def Bill.run (cfg : Config) (e : BillEnv) (t : Task) (st : Store) : Bill → Task × Store
  | .refund => (refundTaskQuota cfg e.env t st).2
  | .settle info => settleTaskBillingOnComplete cfg e.env e.rates e.adjusted t info st

structure Node where
  timedOut : List Task := []
  tasks : List Task := []

/-- The rows, the nodes, the billing calls that are still to be made, and the accounts of the users. -/
structure Polling where
  rows : TaskTable
  nodes : ℕ → Node
  owed : List (ℕ × Task × Bill)
  accounts : ℕ → Store

def nullTaskIds (platform : TaskPlatform) (tasks : List Task) : List ℕ :=
  (tasks.filter fun t => decide (t.platform = platform) && decide (t.getUpstreamTaskID = "")).map Task.id

/-- `taskM` of a platform: of several tasks with one upstream id it keeps the last. -/
def taskM (platform : TaskPlatform) (tasks : List Task) (upstreamID : String) : Option Task :=
  (tasks.filter fun t => decide (t.platform = platform) && decide (t.getUpstreamTaskID ≠ "") &&
    decide (t.getUpstreamTaskID = upstreamID)).getLast?

def taskChannelM (platform : TaskPlatform) (tasks : List Task) (channelId : ℕ) : List String :=
  (tasks.filter fun t => decide (t.platform = platform) && decide (t.getUpstreamTaskID ≠ "") &&
    decide (t.channelId = channelId)).map Task.getUpstreamTaskID

def pollable (platform : TaskPlatform) (tasks : List Task) : List Task :=
  tasks.filter fun t => decide (t.platform = platform) && decide (t.getUpstreamTaskID ≠ "")

/-- What an upstream is asked, and the task that the answer is applied to. -/
structure Poll where
  channelId : ℕ
  upstreamID : String
  task : Task
  deriving DecidableEq, Repr

/-- The questions of a pass when every channel is found: `DispatchPlatformUpdate`, which does nothing for Midjourney.
For Suno the ids of a channel are in one request, and an answer is applied to the task under its id; on the other
platforms each id has a request, and the answer is applied to the task under the id of the request. -/
def polls (platform : TaskPlatform) (tasks : List Task) : List Poll :=
  match platform with
  | .midjourney => []
  | .suno | .video _ =>
    (((pollable platform tasks).map Task.channelId).dedup.insertionSort (· ≤ ·)).flatMap fun channelId =>
      (taskChannelM platform tasks channelId).filterMap fun upstreamID =>
        (taskM platform tasks upstreamID).map fun t => ⟨channelId, upstreamID, t⟩

def failedIDs (platform : TaskPlatform) (tasks : List Task) (channelId : ℕ) : List ℕ :=
  (taskChannelM platform tasks channelId).filterMap fun upstreamID => (taskM platform tasks upstreamID).map Task.id

/-- The reason `updateSunoTasks` and `updateVideoTasks` give when the channel is gone. -/
def missingChannelReason (platform : TaskPlatform) (channelId : ℕ) : String :=
  match platform with
  | .suno => "获取渠道信息失败，请联系管理员，渠道ID：" ++ toString channelId
  | _ => "Failed to get channel info, channel ID: " ++ toString channelId

def putTask (t : Task) (tasks : List Task) : List Task := tasks.map fun u => if u.id = t.id then t else u

/-- What an observer sees of a step, with the copy it works on as it was before. -/
inductive PollEvent
  | insert (id : ℕ)
  | readTimedOut (n : ℕ)
  | sweep (n : ℕ) (t : Task)
  | read (n : ℕ)
  | nullTasks (n : ℕ) (platform : TaskPlatform)
  | missingChannel (n : ℕ) (platform : TaskPlatform) (channelId : ℕ)
  | suno (n : ℕ) (t : Task) (item : SunoItem)
  | video (n : ℕ) (t : Task) (answer : VideoAnswer)
  | bill (n : ℕ) (t : Task) (b : Bill)

/-- A node leaves an updated copy in its memory, writes the rows, and owes the call. -/
def Polling.after (s : Polling) (n : ℕ) (node : Node) (o : Outcome) : Polling :=
  { s with
    rows := o.rows, nodes := Function.update s.nodes n node
    owed := (o.bill.toList.map fun b => (n, o.task, b)) ++ s.owed }

def Polling.bulkFail (s : Polling) (ids : List ℕ) (reason : Option String) : Polling :=
  { s with rows := taskBulkFail ids reason s.rows }

inductive PollStep (cfg : Config) (ps : PollSetting) : Polling → PollEvent → Polling → Prop
  /-- `RelayTask` inserts a task under a new primary key -/
  | insert {s : Polling} (env : Env) (session : BillingSession) (resultQuota : ℤ)
      (id : ℕ) (taskId : String) (platform : TaskPlatform) (userId channelId : ℕ)
      (upstreamTaskId data : String) (tokenId : ℕ) (perCallBilling : Bool) (now : ℤ) {t : Task} {st : Store}
      (hfresh : s.rows id = none)
      (ht : submitTask cfg env session (initTask id taskId platform userId channelId upstreamTaskId data
        tokenId perCallBilling now) resultQuota (s.accounts userId) = (t, st)) :
      PollStep cfg ps s (.insert id)
        { s with rows := Function.update s.rows id (some t), accounts := Function.update s.accounts userId st }
  /-- `GetTimedOutUnfinishedTasks` -/
  | readTimedOut {s : Polling} (n : ℕ) (cutoff : ℤ) (tasks : List Task)
      (hrows : ∀ t ∈ tasks, s.rows t.id = some t ∧ t.timedOut cutoff = true) :
      PollStep cfg ps s (.readTimedOut n)
        { s with nodes := Function.update s.nodes n { s.nodes n with timedOut := tasks } }
  | sweep {s : Polling} (n : ℕ) (now : ℤ) (cas : Cas) {t : Task} {rest : List Task}
      (ht : (s.nodes n).timedOut = t :: rest) :
      PollStep cfg ps s (.sweep n t)
        (s.after n { s.nodes n with timedOut := rest } (sweepTimedOutTask ps now cas t s.rows))
  /-- `GetAllUnFinishSyncTasks` -/
  | read {s : Polling} (n : ℕ) (tasks : List Task)
      (hrows : ∀ t ∈ tasks, s.rows t.id = some t ∧ t.unfinished = true) :
      PollStep cfg ps s (.read n) { s with nodes := Function.update s.nodes n { s.nodes n with tasks := tasks } }
  | nullTasks {s : Polling} (n : ℕ) (platform : TaskPlatform) :
      PollStep cfg ps s (.nullTasks n platform)
        (s.bulkFail (nullTaskIds platform (s.nodes n).tasks) none)
  | missingChannel {s : Polling} (n : ℕ) (platform : TaskPlatform) (channelId : ℕ)
      (hp : platform ≠ .midjourney) :
      PollStep cfg ps s (.missingChannel n platform channelId)
        (s.bulkFail (failedIDs platform (s.nodes n).tasks channelId)
          (some (missingChannelReason platform channelId)))
  | suno {s : Polling} (n : ℕ) (item : SunoItem) (cas : Cas) {t : Task}
      (ht : taskM .suno (s.nodes n).tasks item.taskId = some t) :
      PollStep cfg ps s (.suno n t item)
        (s.after n { s.nodes n with tasks := putTask (updateSunoTask cas item t s.rows).task (s.nodes n).tasks }
          (updateSunoTask cas item t s.rows))
  | video {s : Polling} (n : ℕ) (name upstreamID : String) (answer : VideoAnswer) (now : ℤ) (cas : Cas)
      {t : Task} (ht : taskM (.video name) (s.nodes n).tasks upstreamID = some t) :
      PollStep cfg ps s (.video n t answer)
        (s.after n
          { s.nodes n with
            tasks := putTask (updateVideoSingleTask ps now cas answer t s.rows).task (s.nodes n).tasks }
          (updateVideoSingleTask ps now cas answer t s.rows))
  /-- a billing call; the quota is written to the row when the call has changed it -/
  | bill {s : Polling} (e : BillEnv) {n : ℕ} {t t' : Task} {b : Bill} {st : Store}
      {before later : List (ℕ × Task × Bill)} (ho : s.owed = before ++ (n, t, b) :: later)
      (hb : b.run cfg e t (s.accounts t.userId) = (t', st)) :
      PollStep cfg ps s (.bill n t b)
        { rows := if t'.quota ≠ t.quota then t'.updateQuota e.rowErr s.rows else s.rows
          nodes := Function.update s.nodes n { s.nodes n with
            tasks := (s.nodes n).tasks.map fun u => if u.id = t.id then { u with quota := t'.quota } else u }
          owed := before ++ later
          accounts := Function.update s.accounts t.userId st }

end NewApi
