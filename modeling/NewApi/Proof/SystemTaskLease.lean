import NewApi.Proof.SystemTask

/-!
# A running task has a lock

A claim takes the lock and makes its task a running one in two statements. If its lease runs out in between, a sweep
deletes the lock, or another runner takes it over and gives it back. Either leaves a running task without a lock,
which no sweep can see (`unlocked_task_blocks_type`).

With claims that are quick enough the lock of a running task is never taken away (`running_task_expires`): every claim
or sweep that could do so goes by a clock that was read before the task was made a running one, and the lease reaches
beyond that (`Threat`, `LeaseFit.leased`).
-/

namespace NewApi

open Trace Function SystemTaskMem SystemTaskOp List Bool Option SystemTaskPhase

variable {op : SystemTaskOp} {e : SystemTaskEnv} {m m' : SystemTaskMem} {p p' : SystemTaskPhase} {t t' : SystemTask}
  {now : ℤ} {lock : SystemTaskLock}

namespace SystemTaskPhase

def clock : SystemTaskPhase → Option ℤ
  | .timed now | .read now _ | .contended now _ | .stale now _ _ | .tookOver now _ _ | .locked now _
  | .sweeping now _ _ | .swept now _ _ => some now
  | _ => none

def task : SystemTaskPhase → Option SystemTask
  | .read _ t | .contended _ t | .stale _ t _ | .tookOver _ t _ | .locked _ t | .abandoning t _ => some t
  | _ => none

def underway : SystemTaskPhase → Bool
  | .idle | .done _ => false
  | _ => true

theorem underway_of_task {task : SystemTask} (h : p.task = some task) : p.underway = true := by
  cases p with
  | idle => cases h
  | done => cases h
  | _ => rfl

theorem sweep_task (now : ℤ) (locks : List SystemTaskLock) : (sweep now locks).task = none := by
  cases locks with
  | nil => rfl
  | cons => rfl

theorem sweep_clock {now now' : ℤ} {locks : List SystemTaskLock} (h : (sweep now locks).clock = some now') :
    now = now' := by
  cases locks with
  | nil => cases h
  | cons => exact some.inj h

theorem sweep_ne_finished (now : ℤ) (locks : List SystemTaskLock) : sweep now locks ≠ .finished := by
  cases locks with
  | nil | cons => exact nofun

end SystemTaskPhase

def SystemTaskOp.claims (runnerId : String) : SystemTaskOp → Bool
  | .claim _ _ runnerId' _ => runnerId' == runnerId
  | _ => false

/-- The runner of a claim that is under way -/
def SystemTaskOp.runner : SystemTaskOp → SystemTaskPhase → Option String
  | .claim _ _ runnerId _, p => if p.underway then some runnerId else none
  | _, _ => none

/-- The call could take the lock of a running task away: a claim of the type that has read its task, or a sweep
between the task and its lock. -/
inductive Threat (op : SystemTaskOp) (p : SystemTaskPhase) (t : SystemTask) (now : ℤ) : Prop
  | claim {id runnerId lockUntil task}
      (hop : op = .claim id t.type runnerId lockUntil) (htask : p.task = some task) (hclock : p.clock = some now)
  | sweep {lock rest} (hp : p = .swept now lock rest)
      (htype : lock.type = t.type) (hid : lock.taskId = t.taskId) (hby : lock.lockedBy = t.lockedBy)

theorem Threat.clock (h : Threat op p t now) : p.clock = some now := by
  cases h with
  | claim hop htask hclock => exact hclock
  | sweep hp =>
    rw [hp]
    rfl

theorem Threat.of_same (h : Threat op p t' now) (hsame : SameTask t t') (hby : t'.lockedBy = t.lockedBy) :
    Threat op p t now := by
  cases h with
  | claim hop htask hclock => exact .claim (hsame.type ▸ hop) htask hclock
  | sweep hp htype hid hby' => exact .sweep hp (htype.trans hsame.type) (hid.trans hsame.taskId) (hby'.trans hby)

structure SystemTaskLock.Names (lock : SystemTaskLock) (t : SystemTask) : Prop where
  type : lock.type = t.type
  taskId : lock.taskId = t.taskId
  lockedBy : lock.lockedBy = t.lockedBy

structure CallFits (op : SystemTaskOp) (m : SystemTaskMem) (p : SystemTaskPhase) : Prop where
  clock : ∀ now, p.clock = some now → now ≤ m.now
  task : ∀ id taskType runnerId lockUntil task, op = .claim id taskType runnerId lockUntil → p.task = some task →
    task.id = id ∧ task.type = taskType ∧ ∃ t ∈ m.tasks, SameTask task t
  finished : ∀ taskId lockedBy status result errorMessage, op = .finish taskId lockedBy status result errorMessage →
    p = .finished → ∃ t ∈ m.tasks, t.taskId = taskId ∧ t.status.active = false

theorem TasksStep.running (h : TasksStep op m p' m') (hop : op.Ends) (ht' : t' ∈ m'.tasks)
    (hrunning : t'.status = .running) :
    (∃ t ∈ m.tasks, SameTask t t' ∧ t.status = .running ∧ t'.lockedBy = t.lockedBy) ∨
      ∃ t ∈ m.tasks, SameTask t t' ∧ t.status = .pending ∧ p' = .marked ∧
        ∃ lockUntil, op = .claim t.id t.type t'.lockedBy lockUntil := by
  rcases h.back ht' with ⟨t, ht, hsame, hchange⟩ | ⟨-, hpending⟩
  · cases hchange with
    | keep hstatus hkey hby => exact .inl ⟨t, ht, hsame, hstatus.symm.trans hrunning, hby⟩
    | @mark runnerId lockUntil hop' hp' hpending hstatus hkey hby =>
      exact .inr ⟨t, ht, hsame, hpending, hp', lockUntil, by rw [hop', hby]⟩
    | finish hop' hp' hrunning' hlock hstatus =>
      rw [hop'] at hop
      rw [← hstatus, hrunning] at hop
      cases hop
    | expire hrunning' hstatus =>
      rw [hrunning] at hstatus
      cases hstatus
  · rw [hrunning] at hpending
    cases hpending

theorem SystemTaskStep.now_eq (h : SystemTaskStep op m p p' m') : m'.now = m.now := by
  cases h with
  | created hop hinsert =>
    unfold insertTask at hinsert
    split at hinsert
    · cases hinsert
    · obtain ⟨-, rfl⟩ := Prod.mk.inj (some.inj hinsert)
      rfl
  | acquired hop hinsert =>
    obtain ⟨-, rfl⟩ := insertLock_some hinsert
    rfl
  | tookOver hop hupdate | renewed hop hupdate =>
    obtain ⟨-, rfl⟩ := updateLocks_some hupdate
    rfl
  | expired | swept => rw [mark_eq]
  | marked hop hupdate | wrote hop hupdate | finished hop hupdate =>
    obtain ⟨-, rfl⟩ := updateTasks_some hupdate
    rfl
  | timed | read | contended | stale | claimed | abandoning | abandoned | released | listed | deleted | failed => rfl

theorem CallFits.other {op' : SystemTaskOp} {q : SystemTaskPhase} (h : CallFits op m p) (htasks : TasksStep op' m q m')
    (hnow : m'.now = m.now) : CallFits op m' p := by
  refine ⟨?_, ?_, ?_⟩
  · intro now hclock
    rw [hnow]
    exact h.clock now hclock
  · intro id taskType runnerId lockUntil task hclaim htask
    obtain ⟨hid, htype, t, ht, hsame⟩ := h.task id taskType runnerId lockUntil task hclaim htask
    obtain ⟨t', ht', hsame', -⟩ := htasks.forth ht
    exact ⟨hid, htype, t', ht', hsame'.id.trans hsame.id, hsame'.taskId.trans hsame.taskId,
      hsame'.type.trans hsame.type⟩
  intro taskId lockedBy status result errorMessage hfinish hp
  obtain ⟨t, ht, hid, hfinal⟩ := h.finished taskId lockedBy status result errorMessage hfinish hp
  obtain ⟨t', ht', hsame, hchange⟩ := htasks.forth ht
  exact ⟨t', ht', hsame.taskId.trans hid, by rw [hchange.final hfinal]; exact hfinal⟩

theorem SystemTaskStep.callFits (h : SystemTaskStep op m p p' m') (hop : op.Ends) (hfits : CallFits op m p) :
    CallFits op m' p' := by
  have hsame := hfits.other h.tasks h.now_eq
  -- a phase with no clock of its own, no task and no finished row
  have hblank : ∀ {q : SystemTaskPhase}, q.clock = none → q.task = none → q ≠ .finished → CallFits op m' q := by
    intro q hclock htask hq
    refine ⟨?_, ?_, ?_⟩
    · intro now hnow
      rw [hclock] at hnow
      cases hnow
    · intro id taskType runnerId lockUntil task _ htask'
      rw [htask] at htask'
      cases htask'
    · intro taskId lockedBy status result errorMessage _ hfinished
      exact absurd hfinished hq
  -- a phase that goes on with the clock and the task that the call has
  have hgoes : ∀ {q : SystemTaskPhase}, (∀ now, q.clock = some now → p.clock = some now) → q.task = p.task →
      q ≠ .finished → CallFits op m' q := by
    intro q hclock htask hq
    refine ⟨?_, ?_, ?_⟩
    · intro now hnow
      exact hsame.clock now (hclock now hnow)
    · intro id taskType runnerId lockUntil task hclaim htask'
      exact hsame.task id taskType runnerId lockUntil task hclaim (htask ▸ htask')
    · intro taskId lockedBy status result errorMessage _ hfinished
      exact absurd hfinished hq
  cases h with
  | timed =>
    refine ⟨?_, nofun, nofun⟩
    intro now hnow
    exact (some.inj hnow).symm.le
  | created | marked | claimed | abandoned | wrote | renewed | released | failed => exact hblank rfl rfl nofun
  | read hop' htask hpending =>
    refine ⟨?_, ?_, nofun⟩
    · intro now hnow
      exact hfits.clock now hnow
    intro id taskType runnerId lockUntil task hclaim htask'
    cases htask'
    obtain ⟨rfl, rfl, -, -⟩ := claim.inj (hop'.symm.trans hclaim)
    obtain ⟨hid, htype, -⟩ := isPending_iff.1 hpending
    exact ⟨hid, htype, _, htask, rfl, rfl, rfl⟩
  | contended | acquired | stale | expired | swept => exact hgoes (fun _ h => h) rfl nofun
  | tookOver hop' hupdate hp' => rcases hp' with rfl | rfl <;> exact hgoes (fun _ h => h) rfl nofun
  | abandoning hp => rcases hp with rfl | ⟨expiredTaskId, rfl⟩ <;> exact hgoes nofun rfl nofun
  | finished hop' hupdate =>
    refine ⟨nofun, nofun, ?_⟩
    intro taskId lockedBy status result errorMessage hfinish _
    obtain ⟨rfl, rfl, rfl, rfl, rfl⟩ := finish.inj (hop'.symm.trans hfinish)
    obtain ⟨-, -, -, -, -, -, t', ht', hid, hstatus⟩ := writeResult_row hupdate
    rw [hfinish] at hop
    exact ⟨t', ht', hid, by rw [hstatus]; exact hop⟩
  | listed | deleted =>
    refine hgoes ?_ (sweep_task _ _) (sweep_ne_finished _ _)
    intro now hnow
    rw [sweep_clock hnow]
    rfl

theorem SystemTaskStep.task_cases {task : SystemTask} (h : SystemTaskStep op m p p' m') (htask : p'.task = some task) :
    (p.task = some task ∧ ∀ now, p'.clock = some now → p.clock = some now) ∨
      ∃ id taskType runnerId lockUntil, op = .claim id taskType runnerId lockUntil ∧ task ∈ m.tasks ∧
        isPending id taskType task = true := by
  cases h with
  | read hop hmem hpending =>
    cases htask
    exact .inr ⟨_, _, _, _, hop, hmem, hpending⟩
  | contended | acquired | stale | expired => exact .inl ⟨htask, fun _ h => h⟩
  | tookOver hop hupdate hp' => rcases hp' with rfl | rfl <;> exact .inl ⟨htask, fun _ h => h⟩
  | abandoning hp => rcases hp with rfl | ⟨expiredTaskId, rfl⟩ <;> exact .inl ⟨htask, nofun⟩
  | listed | deleted =>
    rw [sweep_task] at htask
    cases htask
  | timed | created | marked | claimed | abandoned | wrote | renewed | finished | released | swept | failed =>
    cases htask

theorem SystemTaskStep.not_running {rest : List SystemTaskLock}
    (h : SystemTaskStep op m p (.swept now lock rest) m') (ht : t ∈ m'.tasks) (hid : lock.taskId = t.taskId) :
    t.status ≠ .running := by
  intro hrunning
  generalize hq : SystemTaskPhase.swept now lock rest = q at h
  cases h with
  | swept hop =>
    obtain ⟨rfl, rfl, rfl⟩ := SystemTaskPhase.swept.inj hq
    rw [mark_eq] at ht
    obtain ⟨t0, -, rfl⟩ := mem_map.1 ht
    unfold SystemTask.expireLease at hid hrunning
    split_ifs at hrunning with hcond
    rw [if_neg hcond] at hid
    exact hcond (by simp [hid, hrunning])
  | tookOver hop hupdate hp' => rcases hp' with rfl | rfl <;> cases hq
  | @listed now' hop => cases hlocks : m.staleLocks now' <;> rw [hlocks] at hq <;> cases hq
  | @deleted now' lock' rest' hop => cases rest' <;> cases hq
  | timed | created | read | contended | acquired | stale | expired | marked | claimed | abandoning | abandoned | wrote
  | renewed | finished | released | failed => cases hq

theorem SystemTaskStep.marked_from (h : SystemTaskStep op m p .marked m') :
    (∃ now task, p = .locked now task) ∧ m'.locks = m.locks := by
  generalize hq : SystemTaskPhase.marked = q at h
  cases h with
  | marked hop hupdate =>
    obtain ⟨-, rfl⟩ := updateTasks_some hupdate
    exact ⟨⟨_, _, rfl⟩, rfl⟩
  | tookOver hop hupdate hp' => rcases hp' with rfl | rfl <;> cases hq
  | @listed now' hop => cases hlocks : m.staleLocks now' <;> rw [hlocks] at hq <;> cases hq
  | @deleted now' lock' rest' hop => cases rest' <;> cases hq
  | timed | created | read | contended | acquired | stale | expired | claimed | abandoning | abandoned | wrote
  | renewed | finished | released | swept | failed => cases hq

theorem SystemTaskOp.stmt_done {r : Except SystemTaskErr SystemTaskOut} : op.stmt e (.done r) m = none := by
  cases op with
  | _ => rfl

inductive LockChange (op : SystemTaskOp) (p : SystemTaskPhase) (l l' : SystemTaskLock) : Prop
  | keep (hsame : l' = l)
  | renew {lockUntil now} (hop : op = .renew l.taskId l.lockedBy lockUntil) (hp : p = .timed now)
      (htype : l'.type = l.type) (hid : l'.taskId = l.taskId) (hby : l'.lockedBy = l.lockedBy)
      (huntil : l'.lockedUntil = lockUntil)
  | takeOver {id runnerId lockUntil now task expiredTaskId}
      (hop : op = .claim id l.type runnerId lockUntil) (hp : p = .stale now task expiredTaskId)
      (hstale : l.lockedUntil < now) (htype : l'.type = l.type) (hid : l'.taskId = task.taskId)

inductive LockRemoval (op : SystemTaskOp) (p : SystemTaskPhase) (l : SystemTaskLock) : Prop
  | abandoned {id taskType lockUntil task}
      (hop : op = .claim id taskType l.lockedBy lockUntil) (hp : p.task = some task) (hid : l.taskId = task.taskId)
  | finished {status result errorMessage}
      (hop : op = .finish l.taskId l.lockedBy status result errorMessage) (hp : p = .finished)
  | swept {now lock rest} (hp : p = .swept now lock rest)
      (htype : lock.type = l.type) (hid : lock.taskId = l.taskId) (hby : lock.lockedBy = l.lockedBy)
      (hstale : l.lockedUntil < now)

inductive LocksStep (op : SystemTaskOp) (m : SystemTaskMem) (p : SystemTaskPhase) (m' : SystemTaskMem) : Prop
  | rows (g : SystemTaskLock → SystemTaskLock) (hrows : ∀ l ∈ m.locks, LockChange op p l (g l))
      (hlocks : m'.locks = m.locks.map g)
  | insert {id taskType runnerId lockUntil now task} (lock : SystemTaskLock)
      (hop : op = .claim id taskType runnerId lockUntil) (hp : p = .read now task) (htype : lock.type = taskType)
      (hid : lock.taskId = task.taskId) (hfree : ∀ l ∈ m.locks, l.type ≠ taskType)
      (hlocks : m'.locks = m.locks ++ [lock])
  | remove (stays : SystemTaskLock → Bool) (hwhy : ∀ l ∈ m.locks, stays l = false → LockRemoval op p l)
      (hlocks : m'.locks = m.locks.filter stays)

theorem LocksStep.of_same (hlocks : m'.locks = m.locks) : LocksStep op m p m' :=
  .rows id (fun _ _ => .keep rfl) (hlocks.trans (map_id _).symm)

theorem LocksStep.of_update {cond : SystemTaskLock → Bool} {f : SystemTaskLock → SystemTaskLock}
    (hf : ∀ l ∈ m.locks, cond l = true → LockChange op p l (f l)) (h : m.updateLocks cond f = some m') :
    LocksStep op m p m' := by
  obtain ⟨-, rfl⟩ := updateLocks_some h
  refine .rows (fun l => if cond l then f l else l) ?_ rfl
  intro l hl
  by_cases hcond : cond l = true
  · simpa only [hcond, if_true] using hf l hl hcond
  · rw [if_neg hcond]
    exact .keep rfl

theorem SystemTaskStep.locks (h : SystemTaskStep op m p p' m') : LocksStep op m p m' := by
  cases h with
  | created hop hinsert =>
    unfold insertTask at hinsert
    split at hinsert
    · cases hinsert
    · obtain ⟨-, rfl⟩ := Prod.mk.inj (some.inj hinsert)
      exact .of_same rfl
  | acquired hop hinsert =>
    obtain ⟨hfree, rfl⟩ := insertLock_some hinsert
    exact .insert _ hop rfl rfl rfl hfree rfl
  | tookOver hop hupdate =>
    refine .of_update ?_ hupdate
    intro l _ hcond
    simp only [and_eq_true, beq_iff_eq, decide_eq_true_eq] at hcond
    obtain ⟨rfl, hstale⟩ := hcond
    exact .takeOver hop rfl hstale rfl rfl
  | renewed hop hupdate =>
    refine .of_update ?_ hupdate
    intro l _ hcond
    simp only [and_eq_true, beq_iff_eq, decide_eq_true_eq] at hcond
    obtain ⟨⟨rfl, rfl⟩, -⟩ := hcond
    exact .renew hop rfl rfl rfl rfl rfl
  | abandoned hop =>
    refine .remove _ ?_ rfl
    intro l _ hgone
    simp only [not_eq_false', and_eq_true, beq_iff_eq] at hgone
    obtain ⟨hid, rfl⟩ := hgone
    exact .abandoned hop rfl hid
  | released hop =>
    refine .remove _ ?_ rfl
    intro l _ hgone
    simp only [not_eq_false', and_eq_true, beq_iff_eq] at hgone
    obtain ⟨rfl, rfl⟩ := hgone
    exact .finished hop rfl
  | deleted =>
    refine .remove _ ?_ rfl
    intro l _ hgone
    simp only [not_eq_false', and_eq_true, beq_iff_eq, decide_eq_true_eq] at hgone
    obtain ⟨⟨⟨htype, hid⟩, hby⟩, hstale⟩ := hgone
    exact .swept rfl htype.symm hid.symm hby.symm hstale
  | expired | swept =>
    rw [mark_eq]
    exact .of_same rfl
  | marked hop hupdate | wrote hop hupdate | finished hop hupdate =>
    obtain ⟨-, rfl⟩ := updateTasks_some hupdate
    exact .of_same rfl
  | timed | read | contended | stale | claimed | abandoning | listed | failed => exact .of_same rfl

section Runs

variable {ι : Type} {ops : ι → SystemTaskOp} {s s' : Shared ι SystemTaskPhase SystemTaskMem} {i : ι}
  {ev : SharedEvent ι SystemTaskEnv ℤ} {es : List (SharedEvent ι SystemTaskEnv ℤ)} {c : ℤ}

def Leased (ops : ι → SystemTaskOp) (s : Shared ι SystemTaskPhase SystemTaskMem) (t : SystemTask) : Prop :=
  ∃ lock ∈ s.mem.locks, lock.Names t ∧ ∀ i now, Threat (ops i) (s.phase i) t now → now ≤ lock.lockedUntil

structure LeaseFit (ops : ι → SystemTaskOp) (s : Shared ι SystemTaskPhase SystemTaskMem) : Prop where
  tables : TasksFit s.mem
  locks : s.mem.locks.Pairwise fun l l' => l.type ≠ l'.type
  named : ∀ lock ∈ s.mem.locks, ∃ t ∈ s.mem.tasks, t.taskId = lock.taskId ∧ t.type = lock.type
  calls : ∀ i, CallFits (ops i) s.mem (s.phase i)
  runners : s.Once fun i => (ops i).runner
  /-- a claim that is under way has not made its task a running one -/
  unmarked : ∀ i id taskType runnerId lockUntil task, ops i = .claim id taskType runnerId lockUntil →
    (s.phase i).task = some task → ∀ t ∈ s.mem.tasks, t.taskId = task.taskId → t.status = .running →
      t.lockedBy ≠ runnerId
  leased : ∀ t ∈ s.mem.tasks, t.status = .running → Leased ops s t

/-- A runner makes one claim at a time and runs its task only while its lock holds, a renewal is written within its
lease, and the clock does not go back. -/
def LeaseCareful (ops : ι → SystemTaskOp) (s : Shared ι SystemTaskPhase SystemTaskMem) :
    SharedEvent ι SystemTaskEnv ℤ → Prop
  | .call i _ =>
    match ops i, s.phase i with
    | .claim _ _ runnerId _, .idle => ∀ j, (ops j).claims runnerId = true → (s.phase j).underway = false
    | .claim id taskType runnerId _, .locked _ task =>
      s.mem.tasks.any (SystemTaskMem.isPending id taskType) = true →
        s.mem.holdsLease task.taskId runnerId s.mem.now = true
    | .renew _ _ lockUntil, .timed _ => s.mem.now ≤ lockUntil
    | _, _ => True
  | .env now => s.mem.now ≤ now

namespace LeaseFit

theorem threat_le (h : LeaseFit ops s) (hthreat : Threat (ops i) (s.phase i) t now) : now ≤ s.mem.now :=
  (h.calls i).clock now hthreat.clock

variable (h : LeaseFit ops s) (hends : ∀ i, (ops i).Ends) (hst : (ops i).stmt e (s.phase i) s.mem = some (p', m'))

include h hst

theorem locks_call : m'.locks.Pairwise fun l l' => l.type ≠ l'.type := by
  cases (stmt_step hst).locks with
  | rows g hrows hlocks =>
    have htype : ∀ l ∈ s.mem.locks, (g l).type = l.type := by
      intro l hl
      cases hrows l hl with
      | keep hsame => rw [hsame]
      | renew hop hp htype | takeOver hop hp hstale htype => exact htype
    rw [hlocks, pairwise_map]
    apply h.locks.imp_of_mem
    intro l l' hl hl' hne
    rw [htype l hl, htype l' hl']
    exact hne
  | insert lock hop hp htype hid hfree hlocks =>
    rw [hlocks, pairwise_append]
    refine ⟨h.locks, pairwise_singleton _ _, ?_⟩
    intro l hl l' hl'
    obtain rfl := mem_singleton.1 hl'
    rw [htype]
    exact hfree l hl
  | remove stays hwhy hlocks =>
    rw [hlocks]
    exact h.locks.filter _

theorem named_call : ∀ lock ∈ m'.locks, ∃ t ∈ m'.tasks, t.taskId = lock.taskId ∧ t.type = lock.type := by
  have hstep := stmt_step hst
  have hold : ∀ lock ∈ s.mem.locks, ∃ t ∈ m'.tasks, t.taskId = lock.taskId ∧ t.type = lock.type := by
    intro lock hlock
    obtain ⟨t, ht, hid, htype⟩ := h.named lock hlock
    obtain ⟨t', ht', hsame, -⟩ := hstep.tasks.forth ht
    exact ⟨t', ht', hsame.taskId.trans hid, hsame.type.trans htype⟩
  -- the task that a claim writes into a lock
  have hnew : ∀ {id : ℕ} {taskType runnerId : String} {lockUntil : ℤ} {task : SystemTask},
      ops i = .claim id taskType runnerId lockUntil → (s.phase i).task = some task →
        ∃ t ∈ m'.tasks, t.taskId = task.taskId ∧ t.type = taskType := by
    intro id taskType runnerId lockUntil task hop htask
    obtain ⟨-, htype, t, ht, hsame⟩ := (h.calls i).task _ _ _ _ task hop htask
    obtain ⟨t', ht', hsame', -⟩ := hstep.tasks.forth ht
    exact ⟨t', ht', hsame'.taskId.trans hsame.taskId, (hsame'.type.trans hsame.type).trans htype⟩
  cases hstep.locks with
  | rows g hrows hlocks =>
    rw [hlocks]
    intro lock' hlock'
    obtain ⟨lock, hlock, rfl⟩ := mem_map.1 hlock'
    cases hrows lock hlock with
    | keep hsame =>
      rw [hsame]
      exact hold lock hlock
    | renew hop hp htype hid =>
      rw [hid, htype]
      exact hold lock hlock
    | takeOver hop hp hstale htype hid =>
      rw [hid, htype]
      exact hnew hop (by rw [hp]; rfl)
  | insert lock hop hp htype hid hfree hlocks =>
    rw [hlocks]
    intro lock' hlock'
    rcases mem_append.1 hlock' with hlock | hlock
    · exact hold lock' hlock
    obtain rfl := mem_singleton.1 hlock
    rw [hid, htype]
    exact hnew hop (by rw [hp]; rfl)
  | remove stays hwhy hlocks =>
    rw [hlocks]
    intro lock hlock
    exact hold lock (mem_of_mem_filter hlock)

theorem lock_call (hcareful : LeaseCareful ops s (.call i e)) (ht : t ∈ s.mem.tasks)
    (hrunning : t.status = .running) (hlock : lock ∈ s.mem.locks) (hnames : lock.Names t)
    (hsafe : ∀ now, Threat (ops i) (s.phase i) t now → now ≤ lock.lockedUntil) :
    ∃ lock' ∈ m'.locks, lock'.Names t ∧ (lock'.lockedUntil = lock.lockedUntil ∨ s.mem.now ≤ lock'.lockedUntil) := by
  have hstep := stmt_step hst
  cases hstep.locks with
  | rows g hrows hlocks =>
    rw [hlocks]
    refine ⟨g lock, mem_map_of_mem hlock, ?_⟩
    cases hrows lock hlock with
    | keep hsame =>
      rw [hsame]
      exact ⟨hnames, .inl rfl⟩
    | @renew lockUntil now hop hp htype hid hby huntil =>
      refine ⟨⟨htype.trans hnames.type, hid.trans hnames.taskId, hby.trans hnames.lockedBy⟩, .inr ?_⟩
      unfold LeaseCareful at hcareful
      simp only [hop, hp] at hcareful
      rw [huntil]
      exact hcareful
    | takeOver hop hp =>
      rw [hnames.type] at hop
      have hle := hsafe _ (.claim hop (by rw [hp]; rfl) (by rw [hp]; rfl))
      omega
  | insert lock' hop hp htype hid hfree hlocks =>
    rw [hlocks]
    exact ⟨lock, mem_append_left _ hlock, hnames, .inl rfl⟩
  | remove stays hwhy hlocks =>
    rw [hlocks]
    refine ⟨lock, mem_filter.2 ⟨hlock, ?_⟩, hnames, .inl rfl⟩
    by_contra hgone
    cases hwhy lock hlock (not_eq_true _ ▸ hgone) with
    | abandoned hop hp hid =>
      exact h.unmarked i _ _ _ _ _ hop hp t ht (hnames.taskId.symm.trans hid) hrunning hnames.lockedBy.symm
    | finished hop hp =>
      obtain ⟨t1, ht1, hid1, hfinal⟩ := (h.calls i).finished _ _ _ _ _ hop hp
      obtain rfl := h.tables.eq_of_taskId ht ht1 (hnames.taskId.symm.trans hid1.symm)
      rw [hrunning] at hfinal
      cases hfinal
    | swept hp htype hid hby =>
      have hle := hsafe _ (.sweep hp (htype.trans hnames.type) (hid.trans hnames.taskId) (hby.trans hnames.lockedBy))
      omega

omit h in
theorem begun_call : s.phase i = .idle ∨ (s.phase i).underway = true := by
  cases hp : s.phase i with
  | idle => exact .inl rfl
  | done =>
    rw [hp, stmt_done] at hst
    cases hst
  | _ => exact .inr rfl

variable [DecidableEq ι]
include hends

theorem calls_call (j : ι) : CallFits (ops j) m' (update s.phase i p' j) := by
  have hstep := stmt_step hst
  exact (forall_update_iff s.phase fun j p => CallFits (ops j) m' p).2
    ⟨hstep.callFits (hends i) (h.calls i), fun j _ => (h.calls j).other hstep.tasks hstep.now_eq⟩ j

omit hends in
theorem runners_call (hcareful : LeaseCareful ops s (.call i e)) :
    Shared.Once (fun i => (ops i).runner) ⟨m', update s.phase i p'⟩ := by
  refine h.runners.update fun runnerId hrunner => ?_
  cases hop : ops i with
  | claim id taskType runnerId' =>
    simp only [hop, runner, ite_none_right_eq_some, some.injEq] at hrunner ⊢
    obtain ⟨-, rfl⟩ := hrunner
    rcases begun_call hst with hidle | hunder
    · -- a runner that begins a claim has no other under way
      unfold LeaseCareful at hcareful
      simp only [hop, hidle] at hcareful
      refine .inr fun j _ hj => ?_
      cases hopj : ops j with
      | claim _ _ runnerId' =>
        simp only [hopj, ite_none_right_eq_some, some.injEq] at hj
        have hfree := hcareful j (by rw [hopj, hj.2]; exact beq_self_eq_true _)
        rw [hj.1] at hfree
        cases hfree
      | _ =>
        rw [hopj] at hj
        cases hj
    · exact .inl ⟨hunder, rfl⟩
  | _ =>
    rw [hop] at hrunner
    cases hrunner

theorem unmarked_call (j : ι) (id : ℕ) (taskType runnerId : String) (lockUntil : ℤ) (task : SystemTask)
    (hj : ops j = .claim id taskType runnerId lockUntil)
    (htask : (update s.phase i p' j).task = some task) :
    ∀ t ∈ m'.tasks, t.taskId = task.taskId → t.status = .running → t.lockedBy ≠ runnerId := by
  have hstep := stmt_step hst
  intro t' ht' hid hrunning
  rcases hstep.tasks.running (hends i) ht' hrunning with ⟨t, ht, hsame, hrunning', hby⟩ | ⟨t, ht, hsame, -, hp', u, hop⟩
  · rw [hby]
    have hid' : t.taskId = task.taskId := hsame.taskId.symm.trans hid
    by_cases hji : j = i
    · subst hji
      rw [update_self] at htask
      rcases hstep.task_cases htask with ⟨hbefore, -⟩ | ⟨_, _, _, _, -, hmem, hpending⟩
      · exact h.unmarked j id taskType runnerId lockUntil task hj hbefore t ht hid' hrunning'
      obtain rfl := h.tables.eq_of_taskId ht hmem hid'
      rw [(isPending_iff.1 hpending).2.2] at hrunning'
      cases hrunning'
    · rw [update_of_ne hji] at htask
      exact h.unmarked j id taskType runnerId lockUntil task hj htask t ht hid' hrunning'
  · -- another claim that is under way is by another runner
    by_cases hji : j = i
    · subst hji
      rw [update_self, hp'] at htask
      cases htask
    rw [update_of_ne hji] at htask
    intro hrunner
    rw [hp'] at hstep
    obtain ⟨⟨now, task', hp⟩, -⟩ := hstep.marked_from
    exact hji (h.runners j i runnerId (by simp [hj, runner, underway_of_task htask])
      (by simp [hop, hrunner, hp, runner, underway]))

omit [DecidableEq ι] hends in
theorem threat_call (ht : t ∈ s.mem.tasks) (hrunning : t.status = .running) (ht' : t' ∈ m'.tasks)
    (hsame : SameTask t t') (hrunning' : t'.status = .running) (hby : t'.lockedBy = t.lockedBy)
    (hthreat : Threat (ops i) p' t' now) : Threat (ops i) (s.phase i) t now := by
  have hstep := stmt_step hst
  cases hthreat.of_same hsame hby with
  | claim hop htask hclock =>
    rcases hstep.task_cases htask with ⟨hbefore, hclock'⟩ | ⟨id, taskType, runnerId, lockUntil, hop', hmem, hpending⟩
    · exact .claim hop hbefore (hclock' now hclock)
    -- a task of the same type is pending, so the running one is not another
    obtain ⟨-, htype, hstatus⟩ := isPending_iff.1 hpending
    obtain ⟨-, htype', -, -⟩ := claim.inj (hop.symm.trans hop')
    have heq := h.tables.eq_of_active ht hmem (by rw [hrunning]; rfl) (by rw [hstatus]; rfl) (htype'.trans htype.symm)
    rw [heq, hstatus] at hrunning
    cases hrunning
  | sweep hp htype hid =>
    rw [hp] at hstep
    exact absurd hrunning' (hstep.not_running ht' (hid.trans hsame.taskId.symm))

section

variable (hcareful : LeaseCareful ops s (.call i e))
include hcareful

theorem leased_marked (ht : t ∈ s.mem.tasks)
    (hsame : SameTask t t') (hpending : t.status = .pending) (hp' : p' = .marked) {lockUntil : ℤ}
    (hop : ops i = .claim t.id t.type t'.lockedBy lockUntil) : Leased ops ⟨m', update s.phase i p'⟩ t' := by
  have hstep := stmt_step hst
  obtain ⟨⟨now, task, hp⟩, hlocks⟩ := (hp' ▸ hstep).marked_from
  -- the lock that the claim has taken, which has not run out
  have hlease : s.mem.holdsLease task.taskId t'.lockedBy s.mem.now = true := by
    unfold LeaseCareful at hcareful
    simp only [hop, hp] at hcareful
    exact hcareful (any_eq_true.2 ⟨t, ht, isPending_iff.2 ⟨rfl, rfl, hpending⟩⟩)
  obtain ⟨lock, hlock, hheld⟩ := any_eq_true.1 hlease
  simp only [and_eq_true, beq_iff_eq, decide_eq_true_eq] at hheld
  obtain ⟨⟨hid, hby⟩, huntil⟩ := hheld
  obtain ⟨hid1, -, t1, ht1, hsame1⟩ := (h.calls i).task _ _ _ _ task hop (by rw [hp]; rfl)
  obtain rfl := h.tables.eq_of_id ht ht1 (hid1.symm.trans hsame1.id.symm)
  have hlockId : lock.taskId = t.taskId := hid.trans hsame1.taskId.symm
  obtain ⟨t2, ht2, hid2, htype2⟩ := h.named lock hlock
  obtain rfl := h.tables.eq_of_taskId ht ht2 (hlockId.symm.trans hid2.symm)
  refine ⟨lock, hlocks ▸ hlock, ⟨htype2.symm.trans hsame.type.symm, hlockId.trans hsame.taskId.symm, hby⟩, ?_⟩
  intro j now' hthreat
  have hclock := (h.calls_call hends hst j).clock now' hthreat.clock
  rw [hstep.now_eq] at hclock
  exact hclock.trans huntil

theorem leased_call : ∀ t ∈ m'.tasks, t.status = .running → Leased ops ⟨m', update s.phase i p'⟩ t := by
  have hstep := stmt_step hst
  intro t' ht' hrunning'
  rcases hstep.tasks.running (hends i) ht' hrunning' with
    ⟨t, ht, hsame, hrunning, hby⟩ | ⟨t, ht, hsame, hpending, hp', lockUntil, hop⟩
  · obtain ⟨lock, hlock, hnames, hsafe⟩ := h.leased t ht hrunning
    obtain ⟨lock', hlock', hnames', huntil⟩ := h.lock_call hst hcareful ht hrunning hlock hnames fun now => hsafe i now
    refine ⟨lock', hlock', ⟨hnames'.type.trans hsame.type.symm, hnames'.taskId.trans hsame.taskId.symm,
      hnames'.lockedBy.trans hby.symm⟩, ?_⟩
    intro j now hthreat
    -- whoever could take the lock away could do so before
    have hbefore : Threat (ops j) (s.phase j) t now := by
      by_cases hji : j = i
      · subst hji
        simp only [update_self] at hthreat
        exact h.threat_call hst ht hrunning ht' hsame hrunning' hby hthreat
      · simp only [update_of_ne hji] at hthreat
        exact hthreat.of_same hsame hby
    rcases huntil with heq | hle
    · rw [heq]
      exact hsafe j now hbefore
    · exact (h.threat_le hbefore).trans hle
  · exact h.leased_marked hends hst hcareful ht hsame hpending hp' hop

theorem call : LeaseFit ops ⟨m', update s.phase i p'⟩ where
  tables := h.tables.step (hends i) (stmt_step hst).tasks
  locks := h.locks_call hst
  named := h.named_call hst
  calls := h.calls_call hends hst
  runners := h.runners_call hst hcareful
  unmarked := h.unmarked_call hends hst
  leased := h.leased_call hends hst hcareful

end

omit hst in
theorem next (hcareful : LeaseCareful ops s ev) : LeaseFit ops ((systemTaskProgram ops).next s ev) := by
  apply Program.next_keeps h
  · rintro i e p m rfl hst
    exact h.call hends hst hcareful
  rintro v rfl
  refine ⟨⟨h.tables.distinct, h.tables.fresh, h.tables.keyed⟩, h.locks, h.named, ?_, h.runners, h.unmarked, h.leased⟩
  intro j
  refine ⟨?_, (h.calls j).task, (h.calls j).finished⟩
  intro now hclock
  exact ((h.calls j).clock now hclock).trans hcareful

omit hst in
theorem run (hrun : Run (within (systemTaskProgram ops).step (LeaseCareful ops)) s es s') : LeaseFit ops s' := by
  apply hrun.inv _ h
  rintro s ev _ hs ⟨rfl, hcareful⟩
  exact hs.next hends hcareful

end LeaseFit

def SystemTaskOp.worksOn (taskId lockedBy : String) : SystemTaskOp → Bool
  | .renew taskId' lockedBy' _ | .finish taskId' lockedBy' _ _ _ => taskId' == taskId && lockedBy' == lockedBy
  | _ => false

def SystemTaskPhase.SweepAhead (taskId : String) (c : ℤ) : SystemTaskPhase → Prop
  | .idle => True
  | .timed now => c ≤ now
  | .sweeping _ lock rest => ∃ l ∈ lock :: rest, l.taskId = taskId
  | .swept _ _ rest => ∃ l ∈ rest, l.taskId = taskId
  | .done r => r ≠ .ok .done
  | _ => False

theorem SystemTaskPhase.SweepAhead.of_mem {taskId : String} {c now : ℤ} {locks : List SystemTaskLock}
    (h : ∃ l ∈ locks, l.taskId = taskId) : (sweep now locks).SweepAhead taskId c := by
  cases locks with
  | nil =>
    obtain ⟨l, hl, -⟩ := h
    cases hl
  | cons => exact h

theorem SystemTaskStep.sweepAhead {taskId : String} (h : SystemTaskStep .expire m p p' m')
    (hahead : p.SweepAhead taskId c) (hnow : c ≤ m.now)
    (hlock : ∃ lock ∈ m.locks, lock.taskId = taskId ∧ lock.lockedUntil < c)
    (hrunning : ∃ t ∈ m'.tasks, t.taskId = taskId ∧ t.status = .running) : p'.SweepAhead taskId c := by
  have hstep := h
  cases h with
  | timed => exact hnow
  | listed =>
    obtain ⟨lock, hmem, hid, huntil⟩ := hlock
    refine .of_mem ⟨lock, mem_filter.2 ⟨hmem, ?_⟩, hid⟩
    have hle : c ≤ _ := hahead
    simp only [decide_eq_true_eq]
    omega
  | swept =>
    obtain ⟨l, hl, hid⟩ := hahead
    rcases mem_cons.1 hl with rfl | hl
    · obtain ⟨t, ht, hid', hstatus⟩ := hrunning
      exact absurd hstatus (hstep.not_running ht (hid.trans hid'.symm))
    · exact ⟨l, hl, hid⟩
  | deleted => exact .of_mem hahead
  | @failed p err =>
    cases err with
    | none | some => exact nofun
  | created hop | read hop | acquired hop | tookOver hop | expired hop | marked hop | abandoned hop | wrote hop
  | renewed hop | finished hop | released hop => cases hop
  | contended | stale | claimed => cases hahead
  | abandoning hp => rcases hp with rfl | ⟨expiredTaskId, rfl⟩ <;> cases hahead

/-- The task of a dead runner has failed, or its lease was over before `c` and a later sweep is going to meet its
lock. -/
def Dying (k : ι) (t : SystemTask) (c : ℤ) (s : Shared ι SystemTaskPhase SystemTaskMem) : Prop :=
  c ≤ s.mem.now ∧ ∃ t' ∈ s.mem.tasks, SameTask t t' ∧ (t'.status = .failed ∧ t'.activeKey = none ∨
      t'.status = .running ∧ t'.lockedBy = t.lockedBy ∧
        (∀ lock ∈ s.mem.locks, lock.taskId = t.taskId → lock.lockedBy = t.lockedBy → lock.lockedUntil < c) ∧
        (s.phase k).SweepAhead t.taskId c)

theorem LeaseFit.no_new_lock (h : LeaseFit ops s) (hst : (ops i).stmt e (s.phase i) s.mem = some (p', m'))
    (ht : t ∈ s.mem.tasks) (hrunning : t.status = .running) (hidle : (ops i).worksOn t.taskId t.lockedBy = false)
    (hold : ∀ lock ∈ s.mem.locks, lock.taskId = t.taskId → lock.lockedBy = t.lockedBy → lock.lockedUntil < c) :
    ∀ lock ∈ m'.locks, lock.taskId = t.taskId → lock.lockedBy = t.lockedBy → lock.lockedUntil < c := by
  obtain ⟨lock0, hlock0, hnames, hsafe⟩ := h.leased t ht hrunning
  -- a claim that has read the task is one of its type
  have htype : ∀ {id : ℕ} {taskType runnerId : String} {lockUntil : ℤ} {task : SystemTask},
      ops i = .claim id taskType runnerId lockUntil → (s.phase i).task = some task → task.taskId = t.taskId →
        taskType = t.type := by
    intro id taskType runnerId lockUntil task hop htask hid
    obtain ⟨-, htype, t1, ht1, hsame⟩ := (h.calls i).task _ _ _ _ task hop htask
    obtain rfl := h.tables.eq_of_taskId ht ht1 (hid.symm.trans hsame.taskId.symm)
    exact htype.symm.trans hsame.type.symm
  cases (stmt_step hst).locks with
  | rows g hrows hlocks =>
    rw [hlocks]
    intro lock' hlock' hid hby
    obtain ⟨lock, hlock, rfl⟩ := mem_map.1 hlock'
    cases hrows lock hlock with
    | keep hsame =>
      rw [hsame] at hid hby ⊢
      exact hold lock hlock hid hby
    | renew hop hp htype hid' hby' =>
      rw [hop] at hidle
      simp [worksOn, ← hid', ← hby', hid, hby] at hidle
    | takeOver hop hp hstale htype' hid' =>
      have hsameType := htype hop (by rw [hp]; rfl) (hid'.symm.trans hid)
      have hsame : lock = lock0 := by
        have : Std.Symm fun l l' : SystemTaskLock => l.type ≠ l'.type := ⟨fun _ _ hne => hne.symm⟩
        by_contra hne
        have hdistinct := h.locks.forall hlock hlock0 hne
        exact hdistinct (hsameType.trans hnames.type.symm)
      rw [hsameType] at hop
      have hle := hsafe i _ (.claim hop (by rw [hp]; rfl) (by rw [hp]; rfl))
      rw [hsame] at hstale
      omega
  | insert lock hop hp htype' hid hfree hlocks =>
    rw [hlocks]
    intro lock' hlock' hid' hby
    rcases mem_append.1 hlock' with hlock | hlock
    · exact hold lock' hlock hid' hby
    obtain rfl := mem_singleton.1 hlock
    have hsameType := htype hop (by rw [hp]; rfl) (hid.symm.trans hid')
    exact absurd (hnames.type.trans hsameType.symm) (hfree lock0 hlock0)
  | remove stays hwhy hlocks =>
    rw [hlocks]
    intro lock hlock hid hby
    exact hold lock (mem_of_mem_filter hlock) hid hby

variable [DecidableEq ι] {k : ι}

theorem Dying.call (h : Dying k t c s) (hk : ops k = .expire) (hfits : LeaseFit ops s)
    (hst : (ops i).stmt e (s.phase i) s.mem = some (p', m'))
    (hidle : (ops i).worksOn t.taskId t.lockedBy = false) : Dying k t c ⟨m', update s.phase i p'⟩ := by
  have hstep := stmt_step hst
  obtain ⟨hnow, t1, ht1, hsame1, hstatus⟩ := h
  obtain ⟨t2, ht2, hsame2, hchange⟩ := hstep.tasks.forth ht1
  refine ⟨by rw [hstep.now_eq]; exact hnow, t2, ht2, ⟨hsame2.id.trans hsame1.id, hsame2.taskId.trans hsame1.taskId,
    hsame2.type.trans hsame1.type⟩, ?_⟩
  rcases hstatus with ⟨hfailed, hkey⟩ | ⟨hrunning, hby, hlocks, hahead⟩
  · left
    refine ⟨(hchange.final (by rw [hfailed]; rfl)).trans hfailed, ?_⟩
    rcases hchange.key with hsame | hnone
    · exact hsame.trans hkey
    · exact hnone
  cases hchange with
  | mark hop hp' hpending => rw [hrunning] at hpending; cases hpending
  | expire hrunning' hstatus hkey => exact .inl ⟨hstatus, hkey⟩
  | finish hop =>
    rw [hop, hsame1.taskId, hby] at hidle
    simp [worksOn] at hidle
  | keep hstatus hkey hby' =>
    right
    rw [← hsame1.taskId, ← hby] at hidle hlocks
    refine ⟨hstatus.trans hrunning, hby'.trans hby, ?_, ?_⟩
    · have hnew := hfits.no_new_lock hst ht1 hrunning hidle hlocks
      rwa [hsame1.taskId, hby] at hnew
    by_cases hki : k = i
    · subst hki
      simp only [update_self]
      rw [hk] at hstep
      obtain ⟨lock, hlock, hnames, -⟩ := hfits.leased t1 ht1 hrunning
      refine hstep.sweepAhead hahead hnow ⟨lock, hlock, hnames.taskId.trans hsame1.taskId, ?_⟩
        ⟨t2, ht2, hsame2.taskId.trans hsame1.taskId, hstatus.trans hrunning⟩
      exact hlocks lock hlock hnames.taskId hnames.lockedBy
    · simpa only [update_of_ne hki] using hahead

/-- **A runner that died.** Its task has failed once a sweep that began after its lease has returned. -/
theorem Dying.run (h : Dying k t c s) (hk : ops k = .expire) (hfits : LeaseFit ops s)
    (hends : ∀ i, (ops i).Ends) (hrun : Run (within (systemTaskProgram ops).step (LeaseCareful ops)) s es s')
    (hdead : ∀ ev ∈ es, ∀ i e, ev = .call i e → (ops i).worksOn t.taskId t.lockedBy = false) : Dying k t c s' := by
  induction hrun with
  | nil => exact h
  | @cons s s1 s2 ev es hst hrest ih =>
    obtain ⟨rfl, hcareful⟩ := hst
    apply ih _ (hfits.next hends hcareful) fun ev hev => hdead ev (mem_cons_of_mem _ hev)
    apply Program.next_keeps h
    · rintro i e p m rfl hst
      exact h.call hk hfits hst (hdead _ mem_cons_self i e rfl)
    · rintro v rfl
      exact ⟨h.1.trans hcareful, h.2⟩

omit [DecidableEq ι] in
theorem Dying.failed (h : Dying k t c s) (hdone : s.phase k = .done (.ok .done)) :
    ∃ t' ∈ s.mem.tasks, t'.id = t.id ∧ t'.status = .failed ∧ t'.activeKey = none := by
  obtain ⟨-, t', ht', hsame, ⟨hfailed, hkey⟩ | ⟨-, -, -, hahead⟩⟩ := h
  · exact ⟨t', ht', hsame.id, hfailed, hkey⟩
  · rw [hdone] at hahead
    exact absurd rfl hahead

theorem sweep_returns {m : SystemTaskMem} (hk : ops k = .expire) (now : ℤ) (locks : List SystemTaskLock)
    (h : s.At k (.sweep now locks) m) :
    ∃ n, ((replicate n (.call k ⟨false⟩)).foldl (systemTaskProgram ops).next s).phase k = .done (.ok .done) := by
  induction locks generalizing s m with
  | nil => exact ⟨0, h.1⟩
  | cons lock rest ih =>
    have hmark : (systemTaskProgram ops).stmt k ⟨false⟩ (.sweep now (lock :: rest)) m =
        some (.swept now lock rest, m.markSystemTaskLeaseExpired lock.taskId) := by
      simp only [systemTaskProgram, hk]
      rfl
    have hdelete m : (systemTaskProgram ops).stmt k ⟨false⟩ (.swept now lock rest) m =
        some (.sweep now rest, m.deleteStaleLock lock now) := by
      simp only [systemTaskProgram, hk]
      rfl
    obtain ⟨n, hn⟩ := ih ((h.next hmark).next (hdelete _))
    exact ⟨n + 2, hn⟩

theorem sweep_returns_idle (hk : ops k = .expire) (h : s.phase k = .idle) :
    ∃ n, ((replicate n (.call k ⟨false⟩)).foldl (systemTaskProgram ops).next s).phase k = .done (.ok .done) := by
  have hclock : (systemTaskProgram ops).stmt k ⟨false⟩ .idle s.mem = some (.timed s.mem.now, s.mem) := by
    simp only [systemTaskProgram, hk]
    rfl
  have hlist : (systemTaskProgram ops).stmt k ⟨false⟩ (.timed s.mem.now) s.mem =
      some (.sweep s.mem.now (s.mem.staleLocks s.mem.now), s.mem) := by
    simp only [systemTaskProgram, hk]
    rfl
  have hstart : s.At k .idle s.mem := ⟨h, rfl⟩
  obtain ⟨n, hn⟩ := sweep_returns hk _ _ ((hstart.next hclock).next hlist)
  exact ⟨n + 2, hn⟩

structure LeaseStart (s : Shared ι SystemTaskPhase SystemTaskMem) : Prop extends SystemTaskStart s where
  locks : s.mem.locks.Pairwise fun l l' => l.type ≠ l'.type
  named : ∀ lock ∈ s.mem.locks, ∃ t ∈ s.mem.tasks, t.taskId = lock.taskId ∧ t.type = lock.type
  leased : ∀ t ∈ s.mem.tasks, t.status = .running → ∃ lock ∈ s.mem.locks, lock.Names t

omit [DecidableEq ι] in
theorem LeaseStart.fits (h : LeaseStart s) : LeaseFit ops s := by
  refine ⟨h.tables, h.locks, h.named, ?_, ?_, ?_, ?_⟩
  · intro i
    rw [h.idle i]
    exact ⟨nofun, nofun, nofun⟩
  · intro i j runnerId hi
    simp only [h.idle i] at hi
    cases hop : ops i <;> rw [hop] at hi <;> cases hi
  · intro i id taskType runnerId lockUntil task _ htask
    rw [h.idle i] at htask
    cases htask
  intro t ht hrunning
  obtain ⟨lock, hlock, hnames⟩ := h.leased t ht hrunning
  refine ⟨lock, hlock, hnames, ?_⟩
  intro i now hthreat
  have hclock := hthreat.clock
  rw [h.idle i] at hclock
  cases hclock

/-- **A running task can be expired**, if the claims are careful: a lock names it, and if its runner has died, it
fails with the first sweep that begins after its lease. -/
theorem running_task_expires (hstart : LeaseStart s) (hends : ∀ i, (ops i).Ends)
    (hrun : Run (within (systemTaskProgram ops).step (LeaseCareful ops)) s es s') :
    (∀ t ∈ s'.mem.tasks, t.status = .running → ∃ lock ∈ s'.mem.locks, lock.taskId = t.taskId) ∧
    ∀ t ∈ s'.mem.tasks, t.status = .running → ∀ k, ops k = .expire → s'.phase k = .idle →
      (∀ lock ∈ s'.mem.locks, lock.taskId = t.taskId → lock.lockedUntil < s'.mem.now) →
      (∀ es' s'', Run (within (systemTaskProgram ops).step (LeaseCareful ops)) s' es' s'' →
        (∀ ev ∈ es', ∀ i e, ev = .call i e → (ops i).worksOn t.taskId t.lockedBy = false) →
        s''.phase k = .done (.ok .done) →
          ∃ t' ∈ s''.mem.tasks, t'.id = t.id ∧ t'.status = .failed ∧ t'.activeKey = none) ∧
      ∃ n, ∃ t' ∈ ((List.replicate n (.call k ⟨false⟩)).foldl (systemTaskProgram ops).next s').mem.tasks,
        t'.id = t.id ∧ t'.status = .failed ∧ t'.activeKey = none := by
  have hfits : LeaseFit ops s' := hstart.fits.run hends hrun
  refine ⟨?_, ?_⟩
  · intro t ht hrunning
    obtain ⟨lock, hlock, hnames, -⟩ := hfits.leased t ht hrunning
    exact ⟨lock, hlock, hnames.taskId⟩
  intro t ht hrunning k hk hidle hover
  have hdying : Dying k t s'.mem.now s' := by
    refine ⟨le_rfl, t, ht, ⟨rfl, rfl, rfl⟩, .inr ⟨hrunning, rfl, ?_, ?_⟩⟩
    · intro lock hlock hid _
      exact hover lock hlock hid
    · rw [hidle]
      trivial
  have hlater : ∀ es' s'', Run (within (systemTaskProgram ops).step (LeaseCareful ops)) s' es' s'' →
      (∀ ev ∈ es', ∀ i e, ev = .call i e → (ops i).worksOn t.taskId t.lockedBy = false) →
      s''.phase k = .done (.ok .done) →
        ∃ t' ∈ s''.mem.tasks, t'.id = t.id ∧ t'.status = .failed ∧ t'.activeKey = none := by
    intro es' s'' hrun' hdead hdone
    exact (hdying.run hk hfits hends hrun' hdead).failed hdone
  refine ⟨hlater, ?_⟩
  obtain ⟨n, hn⟩ := sweep_returns_idle hk hidle
  refine ⟨n, hlater (replicate n (.call k ⟨false⟩)) _ ?_ ?_ hn⟩
  · -- the statements of a sweep need no care
    have hcareful : ∀ s ev, ev = .call k ⟨false⟩ → LeaseCareful ops s ev := by
      rintro s ev rfl
      simp [LeaseCareful, hk]
    have hsweep := (Run.of_foldl (systemTaskProgram ops).next s' (replicate n (.call k ⟨false⟩))).within_of
      fun ev hev => eq_of_mem_replicate hev
    exact hsweep.within_imp hcareful
  · intro ev hev i e hcall
    obtain ⟨rfl, -⟩ := SharedEvent.call.inj ((eq_of_mem_replicate hev).symm.trans hcall)
    rw [hk]
    rfl

end Runs

section Decidable

variable {ι : Type} [Fintype ι]

instance (ops : ι → SystemTaskOp) (s : Shared ι SystemTaskPhase SystemTaskMem)
    (ev : SharedEvent ι SystemTaskEnv ℤ) : Decidable (LeaseCareful ops s ev) := by
  unfold LeaseCareful
  split
  · split <;> infer_instance
  · infer_instance

end Decidable

local instance neZero_calls : @NeZero ℕ ⟨0⟩ 5 := ⟨Nat.succ_ne_zero 4⟩

def sampleLeaseOps (i : Fin 5) : SystemTaskOp :=
  if i = 0 then .create "t" "poll" "" ""
  else if i = 1 then .claim 1 "poll" "a" 60
  else if i = 4 then .create "u" "poll" "" ""
  else .expire

def sampleLeaseStart : Shared (Fin 5) SystemTaskPhase SystemTaskMem := ⟨⟨[], [], 1, 0⟩, fun _ => .idle⟩

theorem sampleLease_start : LeaseStart sampleLeaseStart where
  idle := fun _ => rfl
  tables := ⟨.nil, by decide, by decide⟩
  locks := .nil
  named := by decide
  leased := by
    intro t ht
    cases ht

theorem sampleLease_ends (i : Fin 5) : (sampleLeaseOps i).Ends := by
  unfold sampleLeaseOps
  split
  · trivial
  split
  · trivial
  split <;> trivial

def sampleLeaseCalls (is : List (Fin 5)) : List (SharedEvent (Fin 5) SystemTaskEnv ℤ) := is.map (.call · ⟨false⟩)

def sampleLeaseDeath : List (SharedEvent (Fin 5) SystemTaskEnv ℤ) := sampleLeaseCalls [0, 1, 1, 1, 1, 1] ++ [.env 61]

theorem running_task_expires_after_death :
    let s' := sampleLeaseDeath.foldl (systemTaskProgram sampleLeaseOps).next sampleLeaseStart
    let s'' := (sampleLeaseCalls [2, 2, 2, 2]).foldl (systemTaskProgram sampleLeaseOps).next s'
    (s'.mem.tasks.map fun t => (t.id, t.status)) = [(1, .running)] ∧
      ∃ t' ∈ s''.mem.tasks, t'.id = 1 ∧ t'.status = .failed ∧ t'.activeKey = none := by
  intro s' s''
  have hrun : Run (within (systemTaskProgram sampleLeaseOps).step (LeaseCareful sampleLeaseOps)) sampleLeaseStart
      sampleLeaseDeath s' := Run.of_allowed (by decide +kernel)
  have hsweep : Run (within (systemTaskProgram sampleLeaseOps).step (LeaseCareful sampleLeaseOps)) s'
      (sampleLeaseCalls [2, 2, 2, 2]) s'' := Run.of_allowed (by decide +kernel)
  have hexpires := (running_task_expires sampleLease_start sampleLease_ends hrun).2
  refine ⟨by decide +kernel, ?_⟩
  obtain ⟨t, ht, hid, hrunning⟩ : ∃ t ∈ s'.mem.tasks, t.id = 1 ∧ t.status = .running := by decide +kernel
  rw [← hid]
  apply (hexpires t ht hrunning 2 rfl (by decide +kernel) _).1 _ _ hsweep _ (by decide +kernel)
  · have hover : ∀ lock ∈ s'.mem.locks, lock.lockedUntil < s'.mem.now := by decide +kernel
    intro lock hlock _
    exact hover lock hlock
  intro ev hev i e hcall
  obtain ⟨j, hj, rfl⟩ := mem_map.1 hev
  obtain ⟨rfl, -⟩ := SharedEvent.call.inj hcall
  have hsame : j = 2 := by simpa using hj
  rw [hsame]
  rfl

def sampleLeaseLost : List (SharedEvent (Fin 5) SystemTaskEnv ℤ) :=
  sampleLeaseCalls [0, 1, 1, 1] ++ [.env 61] ++ sampleLeaseCalls [2, 2, 2, 2, 1, 1] ++ [.env 1000] ++
    sampleLeaseCalls [3, 3, 4]

theorem unlocked_task_blocks_type :
    let s' := sampleLeaseLost.foldl (systemTaskProgram sampleLeaseOps).next sampleLeaseStart
    Run (systemTaskProgram sampleLeaseOps).step sampleLeaseStart sampleLeaseLost s' ∧ LeaseStart sampleLeaseStart ∧
      (∃ task, s'.phase 1 = .done (.ok (.claimed task))) ∧ s'.phase 2 = .done (.ok .done) ∧
      s'.phase 3 = .done (.ok .done) ∧
      (s'.mem.tasks.map fun t => (t.id, t.status, t.activeKey)) = [(1, .running, some "poll")] ∧ s'.mem.locks = [] ∧
      s'.phase 4 = .done (.error .duplicate) := by
  refine ⟨Run.of_foldl _ _ _, sampleLease_start, ⟨_, rfl⟩, ?_, ?_, ?_, ?_, ?_⟩ <;> decide +kernel

end NewApi
