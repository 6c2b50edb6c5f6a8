import NewApi.Trace.Shared

/-!
# System tasks and their leases

`model/system_task.go`: tasks of a type are created, claimed by a runner, kept alive by renewing a lease, and
finished; a sweep fails the tasks whose lease has run out. There is one lock row per type. No call uses a transaction,
so every SQL statement and every reading of the clock is a step. A statement that fails has written nothing.
-/

namespace NewApi

open Trace

inductive SystemTaskStatus
  | pending | running | succeeded | failed
  deriving DecidableEq

def SystemTaskStatus.active : SystemTaskStatus → Bool
  | .pending | .running => true
  | .succeeded | .failed => false

structure SystemTask where
  id : ℕ
  (taskId type : String)
  status : SystemTaskStatus
  /-- unique, unless it is null -/
  activeKey : Option String
  (payload state result error lockedBy : String)
  (createdAt updatedAt : ℤ)
  deriving DecidableEq

structure SystemTaskLock where
  /-- the primary key -/
  (type taskId lockedBy : String)
  (lockedUntil updatedAt : ℤ)
  deriving DecidableEq

structure SystemTaskMem where
  tasks : List SystemTask
  locks : List SystemTaskLock
  nextId : ℕ
  now : ℤ
  deriving DecidableEq

namespace SystemTaskMem

def updateTasks (cond : SystemTask → Bool) (f : SystemTask → SystemTask) (m : SystemTaskMem) : Option SystemTaskMem :=
  if m.tasks.any cond then some { m with tasks := m.tasks.map fun t => if cond t then f t else t } else none

def updateLocks (cond : SystemTaskLock → Bool) (f : SystemTaskLock → SystemTaskLock) (m : SystemTaskMem) :
    Option SystemTaskMem :=
  if m.locks.any cond then some { m with locks := m.locks.map fun l => if cond l then f l else l } else none

/-- `DB.Create(task)`; `task_id` and `active_key` are unique. -/
def insertTask (taskId taskType payload state : String) (m : SystemTaskMem) : Option (SystemTask × SystemTaskMem) :=
  if m.tasks.any fun t => t.taskId == taskId || t.activeKey == some taskType then none
  else
    let task : SystemTask :=
      ⟨m.nextId, taskId, taskType, .pending, some taskType, payload, state, "", "", "", m.now, m.now⟩
    some (task, { m with tasks := m.tasks ++ [task], nextId := m.nextId + 1 })

def isPending (id : ℕ) (taskType : String) (t : SystemTask) : Bool :=
  t.id == id && t.type == taskType && t.status == .pending

def insertLock (lock : SystemTaskLock) (m : SystemTaskMem) : Option SystemTaskMem :=
  if m.locks.any fun l => l.type == lock.type then none else some { m with locks := m.locks ++ [lock] }

def takeOverLock (taskType taskId lockedBy : String) (now lockUntil : ℤ) (m : SystemTaskMem) : Option SystemTaskMem :=
  m.updateLocks (fun l => l.type == taskType && decide (l.lockedUntil < now))
    fun l => { l with taskId, lockedBy, lockedUntil := lockUntil, updatedAt := now }

def markRunning (id : ℕ) (taskType runnerId : String) (now : ℤ) (m : SystemTaskMem) : Option SystemTaskMem :=
  m.updateTasks (isPending id taskType) fun t => { t with status := .running, lockedBy := runnerId, updatedAt := now }

/-- How many rows it has matched is not asked. -/
def markSystemTaskLeaseExpired (taskId : String) (m : SystemTaskMem) : SystemTaskMem :=
  (m.updateTasks (fun t => t.taskId == taskId && t.status == .running) fun t =>
    { t with status := .failed, activeKey := none, error := "task lease expired", updatedAt := m.now }).getD m

def holdsLease (taskId lockedBy : String) (now : ℤ) (m : SystemTaskMem) : Bool :=
  m.locks.any fun l => l.taskId == taskId && l.lockedBy == lockedBy && decide (now ≤ l.lockedUntil)

def isHeld (taskId lockedBy : String) (now : ℤ) (m : SystemTaskMem) (t : SystemTask) : Bool :=
  t.taskId == taskId && t.status == .running && t.lockedBy == lockedBy && m.holdsLease t.taskId lockedBy now

def writeState (taskId lockedBy state : String) (now : ℤ) (m : SystemTaskMem) : Option SystemTaskMem :=
  m.updateTasks (m.isHeld taskId lockedBy now) fun t => { t with state, updatedAt := now }

def writeResult (taskId lockedBy : String) (status : SystemTaskStatus) (result errorMessage : String) (now : ℤ)
    (m : SystemTaskMem) : Option SystemTaskMem :=
  m.updateTasks (m.isHeld taskId lockedBy now) fun t =>
    { t with status, activeKey := none, result, error := errorMessage, updatedAt := now }

def renewLock (taskId lockedBy : String) (lockUntil now : ℤ) (m : SystemTaskMem) : Option SystemTaskMem :=
  m.updateLocks (fun l => l.taskId == taskId && l.lockedBy == lockedBy && decide (now ≤ l.lockedUntil))
    fun l => { l with lockedUntil := lockUntil, updatedAt := now }

def releaseSystemTaskLock (taskId lockedBy : String) (m : SystemTaskMem) : SystemTaskMem :=
  { m with locks := m.locks.filter fun l => !(l.taskId == taskId && l.lockedBy == lockedBy) }

def staleLocks (now : ℤ) (m : SystemTaskMem) : List SystemTaskLock :=
  m.locks.filter fun l => decide (l.lockedUntil < now)

/-- The sweep deletes a lock that it has read, if that lock has not been renewed. -/
def deleteStaleLock (lock : SystemTaskLock) (now : ℤ) (m : SystemTaskMem) : SystemTaskMem :=
  { m with locks := m.locks.filter fun l => !(l.type == lock.type && l.taskId == lock.taskId &&
      l.lockedBy == lock.lockedBy && decide (l.lockedUntil < now)) }

end SystemTaskMem

inductive SystemTaskOp
  /-- `taskId` is what `GenerateSystemTaskID` has returned; payload and state are texts already -/
  | create (taskId taskType payload state : String)
  | claim (id : ℕ) (taskType runnerId : String) (lockUntil : ℤ)
  | updateState (taskId lockedBy state : String)
  | renew (taskId lockedBy : String) (lockUntil : ℤ)
  | finish (taskId lockedBy : String) (status : SystemTaskStatus) (result errorMessage : String)
  /-- `ExpireStaleSystemTaskLocks(common.GetTimestamp())` -/
  | expire
  deriving DecidableEq

inductive SystemTaskErr
  | db
  /-- `task_id` or `active_key` is taken -/
  | duplicate
  /-- `ErrSystemTaskLockLost`: "system task lock lost" -/
  | lockLost
  deriving DecidableEq

inductive SystemTaskOut
  | created (task : SystemTask)
  | claimed (task : SystemTask)
  | notClaimed
  | done
  deriving DecidableEq

inductive SystemTaskPhase
  | idle
  | timed (now : ℤ)
  | read (now : ℤ) (task : SystemTask)
  | contended (now : ℤ) (task : SystemTask)
  /-- it has read a lock of this task, which has run out -/
  | stale (now : ℤ) (task : SystemTask) (expiredTaskId : String)
  /-- it has the lock, which was another task's before -/
  | tookOver (now : ℤ) (task : SystemTask) (expiredTaskId : String)
  | locked (now : ℤ) (task : SystemTask)
  | marked
  /-- it gives the lock back: it has met this error, or the task was not pending any more -/
  | abandoning (task : SystemTask) (err : Option SystemTaskErr)
  | finished
  | sweeping (now : ℤ) (lock : SystemTaskLock) (rest : List SystemTaskLock)
  | swept (now : ℤ) (lock : SystemTaskLock) (rest : List SystemTaskLock)
  | done (result : Except SystemTaskErr SystemTaskOut)
  deriving DecidableEq

structure SystemTaskEnv where
  dbErr : Bool
  deriving DecidableEq

def SystemTaskPhase.sweep (now : ℤ) : List SystemTaskLock → SystemTaskPhase
  | [] => .done (.ok .done)
  | lock :: rest => .sweeping now lock rest

def claimSystemTaskStmt (id : ℕ) (taskType runnerId : String) (lockUntil : ℤ) (e : SystemTaskEnv) (p : SystemTaskPhase)
    (m : SystemTaskMem) : Option (SystemTaskPhase × SystemTaskMem) :=
  match p with
  | .idle => some (.timed m.now, m)
  | .timed now =>
    if e.dbErr then some (.done (.error .db), m)
    else match m.tasks.find? (SystemTaskMem.isPending id taskType) with
      | none => some (.done (.ok .notClaimed), m)
      | some task => some (.read now task, m)
  -- `acquireSystemTaskLock`: every error of the insert is taken for a lock that exists
  | .read now task =>
    if e.dbErr then some (.contended now task, m)
    else match m.insertLock ⟨taskType, task.taskId, runnerId, lockUntil, now⟩ with
      | none => some (.contended now task, m)
      | some m' => some (.locked now task, m')
  | .contended now task =>
    if e.dbErr then some (.done (.error .db), m)
    else match m.locks.find? (·.type == taskType) with
      | none => some (.done (.ok .notClaimed), m)
      | some existing =>
        if now ≤ existing.lockedUntil then some (.done (.ok .notClaimed), m)
        else some (.stale now task existing.taskId, m)
  | .stale now task expiredTaskId =>
    if e.dbErr then some (.done (.error .db), m)
    else match m.takeOverLock taskType task.taskId runnerId now lockUntil with
      | none => some (.done (.ok .notClaimed), m)
      | some m' =>
        if expiredTaskId ≠ "" ∧ expiredTaskId ≠ task.taskId then some (.tookOver now task expiredTaskId, m')
        else some (.locked now task, m')
  | .tookOver now task expiredTaskId =>
    if e.dbErr then some (.abandoning task (some .db), m)
    else some (.locked now task, m.markSystemTaskLeaseExpired expiredTaskId)
  | .locked now task =>
    if e.dbErr then some (.abandoning task (some .db), m)
    else match m.markRunning id taskType runnerId now with
      | none => some (.abandoning task none, m)
      | some m' => some (.marked, m')
  | .marked =>
    if e.dbErr then some (.done (.error .db), m)
    else match m.tasks.find? (·.id == id) with
      | none => some (.done (.error .db), m)
      | some task => some (.done (.ok (.claimed task)), m)
  -- the error of the release is thrown away
  | .abandoning task err =>
    some (.done (err.elim (.ok .notClaimed) .error),
      if e.dbErr then m else m.releaseSystemTaskLock task.taskId runnerId)
  | _ => none

/-- `UpdateSystemTaskState` and `RenewSystemTaskLock`: the clock, and one update. -/
def heldUpdateStmt (write : ℤ → SystemTaskMem → Option SystemTaskMem) (e : SystemTaskEnv) (p : SystemTaskPhase)
    (m : SystemTaskMem) : Option (SystemTaskPhase × SystemTaskMem) :=
  match p with
  | .idle => some (.timed m.now, m)
  | .timed now =>
    if e.dbErr then some (.done (.error .db), m)
    else match write now m with
      | none => some (.done (.error .lockLost), m)
      | some m' => some (.done (.ok .done), m')
  | _ => none

def finishSystemTaskStmt (taskId lockedBy : String) (status : SystemTaskStatus) (result errorMessage : String)
    (e : SystemTaskEnv) (p : SystemTaskPhase) (m : SystemTaskMem) : Option (SystemTaskPhase × SystemTaskMem) :=
  match p with
  | .idle => some (.timed m.now, m)
  | .timed now =>
    if e.dbErr then some (.done (.error .db), m)
    else match m.writeResult taskId lockedBy status result errorMessage now with
      | none => some (.done (.error .lockLost), m)
      | some m' => some (.finished, m')
  | .finished =>
    if e.dbErr then some (.done (.error .db), m)
    else some (.done (.ok .done), m.releaseSystemTaskLock taskId lockedBy)
  | _ => none

def expireStaleSystemTaskLocksStmt (e : SystemTaskEnv) (p : SystemTaskPhase) (m : SystemTaskMem) :
    Option (SystemTaskPhase × SystemTaskMem) :=
  match p with
  | .idle => some (.timed m.now, m)
  | .timed now => if e.dbErr then some (.done (.error .db), m) else some (.sweep now (m.staleLocks now), m)
  | .sweeping now lock rest =>
    if e.dbErr then some (.done (.error .db), m)
    else some (.swept now lock rest, m.markSystemTaskLeaseExpired lock.taskId)
  | .swept now lock rest =>
    if e.dbErr then some (.done (.error .db), m) else some (.sweep now rest, m.deleteStaleLock lock now)
  | _ => none

def createSystemTaskStmt (taskId taskType payload state : String) (e : SystemTaskEnv) (p : SystemTaskPhase)
    (m : SystemTaskMem) : Option (SystemTaskPhase × SystemTaskMem) :=
  match p with
  | .idle =>
    if e.dbErr then some (.done (.error .db), m)
    else match m.insertTask taskId taskType payload state with
      | none => some (.done (.error .duplicate), m)
      | some (task, m') => some (.done (.ok (.created task)), m')
  | _ => none

def SystemTaskOp.stmt : SystemTaskOp → SystemTaskEnv → SystemTaskPhase → SystemTaskMem →
    Option (SystemTaskPhase × SystemTaskMem)
  | .create taskId taskType payload state => createSystemTaskStmt taskId taskType payload state
  | .claim id taskType runnerId lockUntil => claimSystemTaskStmt id taskType runnerId lockUntil
  | .updateState taskId lockedBy state => heldUpdateStmt (SystemTaskMem.writeState taskId lockedBy state)
  | .renew taskId lockedBy lockUntil => heldUpdateStmt (SystemTaskMem.renewLock taskId lockedBy lockUntil)
  | .finish taskId lockedBy status result errorMessage =>
    finishSystemTaskStmt taskId lockedBy status result errorMessage
  | .expire => expireStaleSystemTaskLocksStmt

def systemTaskProgram {ι : Type} (ops : ι → SystemTaskOp) :
    Program ι SystemTaskPhase SystemTaskMem SystemTaskEnv ℤ where
  stmt i e p m := (ops i).stmt e p m
  env now m := { m with now }

end NewApi
