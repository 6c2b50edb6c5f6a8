import NewApi.Trace.Shared
import Mathlib.Algebra.Order.Ring.Int

/-!
# Midjourney tasks

`relay/mjproxy_handler.go`, `service/midjourney.go`, `model/midjourney.go` and `runMidjourneyTaskUpdateOnce`. A task
is inserted with its charge in the column `quota`, then the user and the token are charged, then the billing columns
are written. A polling pass copies all tasks that are not at 100%, asks the channels, writes each copy back over the
whole row if the status is still the one of the copy, and refunds what has failed.

`mjProgram` runs any number of submissions and passes, whose statements are atomic and succeed.
-/

namespace NewApi

open Trace

/-- A row of `midjourneys`, without what is only shown: action, prompt, description. -/
structure MjTask where
  id : ℕ
  code : ℤ
  userId : ℕ
  (mjId promptEn state : String)
  (submitTime startTime finishTime : ℤ)
  (imageUrl videoUrl videoUrls status progress failReason : String)
  channelId : ℕ
  quota : ℤ
  (buttons properties : String)
  (tokenId billingChannelId : ℕ)
  deriving DecidableEq

/-- `dto.MidjourneyDto`; lists and objects as the text that is stored, `none` when they are missing or empty. -/
structure MjAnswer where
  (mjId promptEn state : String)
  (submitTime startTime finishTime : ℤ)
  (imageUrl videoUrl : String)
  videoUrls : Option String
  (status progress failReason : String)
  (buttons properties : Option String)
  deriving DecidableEq

def MjAnswer.timeout (now : ℤ) (task : MjTask) (answer : MjAnswer) : MjAnswer :=
  if 3600000 < now - task.submitTime ∧ task.progress ≠ "100%" then
    { answer with failReason := "上游任务超时（超过1小时）", status := "FAILURE" }
  else answer

def checkMjTaskNeedUpdate (old : MjTask) (new : MjAnswer) : Bool :=
  old.code ≠ 1 || old.progress ≠ new.progress || old.promptEn ≠ new.promptEn || old.state ≠ new.state ||
    old.submitTime ≠ new.submitTime || old.startTime ≠ new.startTime || old.finishTime ≠ new.finishTime ||
    old.imageUrl ≠ new.imageUrl || old.status ≠ new.status || old.failReason ≠ new.failReason ||
    (old.progress ≠ "100%" && new.failReason ≠ "") || old.videoUrl ≠ new.videoUrl ||
    old.videoUrls ≠ new.videoUrls.getD ""

def MjTask.copyFrom (answer : MjAnswer) (task : MjTask) : MjTask :=
  { task with
    code := 1
    progress := answer.progress
    promptEn := answer.promptEn
    state := answer.state
    submitTime := answer.submitTime
    startTime := answer.startTime
    finishTime := answer.finishTime
    imageUrl := answer.imageUrl
    status := answer.status
    failReason := answer.failReason
    properties := answer.properties.getD task.properties
    buttons := answer.buttons.getD task.buttons
    videoUrl := answer.videoUrl
    videoUrls := answer.videoUrls.getD "" }

def MjAnswer.fails (answer : MjAnswer) : Bool :=
  (answer.progress ≠ "100%" && answer.failReason ≠ "") || (answer.progress = "100%" && answer.status = "FAILURE")

def MjTask.updated (answer : MjAnswer) (task : MjTask) : MjTask :=
  if answer.fails then { task.copyFrom answer with progress := "100%" } else task.copyFrom answer

inductive MjAccount
  | user (id : ℕ)
  | token (id : ℕ)
  deriving DecidableEq

structure MjMove where
  task : ℕ
  account : MjAccount
  amount : ℤ
  deriving DecidableEq

/-- The quotas of users and tokens are what they were at the start and the sum of the moves. -/
structure MjMem where
  rows : List MjTask
  nextId : ℕ
  moves : List MjMove
  deriving DecidableEq

namespace MjMem

def move (task : ℕ) (account : MjAccount) (amount : ℤ) (m : MjMem) : MjMem :=
  { m with moves := m.moves ++ [⟨task, account, amount⟩] }

def update (C : MjTask → Bool) (f : MjTask → MjTask) (m : MjMem) : MjMem :=
  { m with rows := m.rows.map fun row => if C row then f row else row }

def unfinished (m : MjMem) : List MjTask := m.rows.filter fun row => row.progress ≠ "100%"

def updateBillingState (task : MjTask) (m : MjMem) : MjMem :=
  m.update (fun row => row.id = task.id) fun row =>
    { row with quota := task.quota, tokenId := task.tokenId, billingChannelId := task.billingChannelId }

def matching (fromStatus : String) (task row : MjTask) : Bool := row.id = task.id && row.status = fromStatus

/-- Every column is written, and each row that matched is counted. -/
def updateWithStatus (fromStatus : String) (task : MjTask) (m : MjMem) : Bool × MjMem :=
  (m.rows.any (matching fromStatus task), m.update (matching fromStatus task) fun _ => task)

def bulkFail (C : MjTask → Bool) (reason : Option String) (m : MjMem) : MjMem :=
  m.update C fun row =>
    { row with status := "FAILURE", progress := "100%", failReason := reason.getD row.failReason }

def failNullTasks (ids : List ℕ) (m : MjMem) : MjMem := m.bulkFail (fun row => ids.contains row.id) none

def failChannelTasks (channelId : ℕ) (mjIds : List String) (m : MjMem) : MjMem :=
  m.bulkFail (fun row => mjIds.contains row.mjId)
    (some s!"获取渠道信息失败，请联系管理员，渠道ID：{channelId}")

end MjMem

structure MjSubmit where
  (userId tokenId : ℕ)
  isPlayground : Bool
  subscription : Bool
  channelId : ℕ
  relayChannelId : ℕ
  /-- `priceData.Quota` -/
  price : ℤ
  /-- `RelaySwapFace`, otherwise `RelayMidjourneySubmit` -/
  swapFace : Bool
  /-- the action is `UPLOAD` -/
  upload : Bool
  /-- false for the actions that are free -/
  (consumeQuota statusOK : Bool)
  code : ℤ
  description : String
  /-- the upstream id -/
  result : String
  existing : Option (String × String)
  now : ℤ
  deriving DecidableEq

/-- The codes of a task that was taken: submitted, there already, queued. -/
def MjSubmit.accepted (a : MjSubmit) : Bool := a.code = 1 || a.code = 21 || a.code = 22

def MjSubmit.shouldBill (a : MjSubmit) : Bool :=
  if a.swapFace then a.statusOK && a.code = 1 else a.consumeQuota && a.accepted && a.statusOK

def MjSubmit.found (a : MjSubmit) : Option (String × String) := if a.code = 21 then a.existing else none

def MjTask.adopt (now : ℤ) (found : Option (String × String)) (task : MjTask) : MjTask :=
  match found with
  | none => task
  | some (imageUrl, status) =>
    if status = "SUCCESS" then
      { task with imageUrl, status, progress := "100%", startTime := now, finishTime := now }
    else { task with imageUrl, status }

def MjSubmit.blank (a : MjSubmit) : MjTask :=
  let startTime := if a.swapFace then a.now else 0
  let failReason := if a.swapFace || a.accepted then "" else a.description
  ⟨0, a.code, a.userId, a.result, "", "", a.now, startTime, 0, "", "", "", "", "0%", failReason, a.channelId, 0,
    "", "", 0, 0⟩

def MjSubmit.task (a : MjSubmit) : MjTask :=
  if a.swapFace then a.blank
  -- a task that is there with success counts as submitted
  else if a.upload ∧ (a.code = 1 ∨ a.found.map (·.2) = some "SUCCESS") then
    { a.blank.adopt a.now a.found with progress := "100%", status := "SUCCESS" }
  else a.blank.adopt a.now a.found

/-- `PrepareMidjourneyTaskBilling`; its errors are logged, and the task is then not billed. -/
def prepareMidjourneyTaskBilling (a : MjSubmit) (task : MjTask) : MjTask × Bool :=
  let task := { task with quota := 0, tokenId := 0, billingChannelId := 0 }
  if a.shouldBill = false ∨ a.price < 0 ∨ a.subscription then (task, false)
  else
    ({ task with
        quota := a.price
        billingChannelId := if 0 < a.relayChannelId then a.relayChannelId else task.channelId }, true)

inductive MjOp
  | submit (a : MjSubmit)
  /-- `runMidjourneyTaskUpdateOnce` -/
  | poll
  deriving DecidableEq

/-- A polling pass: its copies, the channels that are left, and the rest of the answers of the current channel. -/
structure MjPass where
  copies : List MjTask
  channels : List ℕ
  answers : List MjAnswer
  deriving DecidableEq

def MjPass.start (tasks : List MjTask) : MjPass :=
  let copies := (tasks.filter fun task => task.mjId ≠ "").reverse
  ⟨copies, (copies.map (·.channelId)).dedup, []⟩

/-- The copy of the task is shared by all that holds it. -/
def MjPass.put (task : MjTask) (pass : MjPass) : MjPass :=
  { pass with copies := pass.copies.map fun copy => if copy.id = task.id then task else copy }

inductive MjPhase
  | idle
  -- `SettleMidjourneyTaskBilling` after the insert
  | inserted (task : MjTask)
  | userCharged (task : MjTask)
  | tokenCharged (task : MjTask)
  | submitted (id : ℕ)
  -- the pass: tasks were read
  | polled (tasks : List MjTask)
  | scanning (pass : MjPass)
  -- `RefundMidjourneyQuota`
  | refundUser (pass : MjPass) (task : MjTask)
  | refundToken (pass : MjPass) (task : MjTask)
  | clearQuota (pass : MjPass) (task : MjTask)
  | finished
  deriving DecidableEq

/-- What is decided outside of a statement of a pass. -/
inductive MjEnv
  | next (now : ℤ)
  /-- `CacheGetChannel` fails -/
  | channelMissing (channelId : ℕ)
  | unreachable (channelId : ℕ)
  | answers (channelId : ℕ) (items : List MjAnswer)
  | cancel
  deriving DecidableEq

def MjPass.item (now : ℤ) (answer : MjAnswer) (pass : MjPass) (m : MjMem) : MjPhase × MjMem :=
  match pass.copies.find? fun copy => copy.mjId = answer.mjId with
  | none => (.scanning pass, m)
  | some task =>
    let answer := answer.timeout now task
    if checkMjTaskNeedUpdate task answer = false then (.scanning pass, m)
    else
      -- the copy is changed whether its row is or not
      let updated := task.updated answer
      let won := m.updateWithStatus task.status updated
      if won.1 ∧ answer.fails ∧ updated.quota ≠ 0 then (.refundUser (pass.put updated) updated, won.2)
      else (.scanning (pass.put updated), won.2)

def MjPass.channel (e : MjEnv) (pass : MjPass) (m : MjMem) : Option (MjPhase × MjMem) :=
  match e with
  | .next _ => none
  | .cancel => some (.finished, m)
  | .channelMissing c =>
    if c ∈ pass.channels then
      let mjIds := (pass.copies.filter fun copy => copy.channelId = c).map (·.mjId)
      some (.scanning { pass with channels := pass.channels.erase c }, m.failChannelTasks c mjIds)
    else none
  | .unreachable c =>
    if c ∈ pass.channels then some (.scanning { pass with channels := pass.channels.erase c }, m) else none
  | .answers c items =>
    if c ∈ pass.channels then some (.scanning { pass with channels := pass.channels.erase c, answers := items }, m)
    else none

def MjOp.stmt (op : MjOp) (e : MjEnv) (p : MjPhase) (m : MjMem) : Option (MjPhase × MjMem) :=
  match p, op with
  | .idle, .submit a =>
    let prepared := prepareMidjourneyTaskBilling a a.task
    let task := { prepared.1 with id := m.nextId }
    some (if prepared.2 then .inserted task else .submitted m.nextId,
      { m with rows := m.rows ++ [task], nextId := m.nextId + 1 })
  | .inserted task, _ => some (.userCharged task, m.move task.id (.user task.userId) (-task.quota))
  | .userCharged task, .submit a =>
    if a.isPlayground then some (.tokenCharged { task with tokenId := 0 }, m)
    else some (.tokenCharged { task with tokenId := a.tokenId }, m.move task.id (.token a.tokenId) (-task.quota))
  | .tokenCharged task, _ => some (.submitted task.id, m.updateBillingState task)
  | .idle, .poll => some (if m.unfinished = [] then .finished else .polled m.unfinished, m)
  | .polled tasks, _ =>
    let nulls := tasks.filter fun task => task.mjId = ""
    some (.scanning (.start tasks), if nulls = [] then m else m.failNullTasks (nulls.map (·.id)))
  | .scanning pass, _ =>
    match pass.answers with
    | answer :: rest =>
      match e with
      | .next now => some ({ pass with answers := rest }.item now answer m)
      | _ => none
    | [] => if pass.channels = [] then some (.finished, m) else pass.channel e m
  | .refundUser pass task, _ =>
    some (if 0 < task.tokenId then .refundToken pass task else .clearQuota pass task,
      m.move task.id (.user task.userId) task.quota)
  | .refundToken pass task, _ => some (.clearQuota pass task, m.move task.id (.token task.tokenId) task.quota)
  | .clearQuota pass task, _ =>
    let task := { task with quota := 0 }
    some (.scanning (pass.put task), m.updateBillingState task)
  | _, _ => none

section Program

variable {ι : Type}

def mjProgram (ops : ι → MjOp) : Program ι MjPhase MjMem MjEnv Empty where
  stmt := fun i => (ops i).stmt
  env := fun v _ => nomatch v

end Program

end NewApi
