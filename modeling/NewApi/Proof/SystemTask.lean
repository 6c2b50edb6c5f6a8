import NewApi.Spec.SystemTask

/-!
# A system task is run once

A task goes from pending to running by the update of one claim, and from running to its end by that of a finish, which
needs the runner of that claim and a lock row that names both, or by a sweep (`TaskChange`). Nothing leads back, so
one claim of a task succeeds and one finish changes the row, whatever the clock does (`system_task_once`).
-/

namespace NewApi

open Trace Function SystemTaskMem SystemTaskOp List Program SystemTaskPhase Option SystemTask

variable {op : SystemTaskOp} {e : SystemTaskEnv} {m m' : SystemTaskMem} {p p' : SystemTaskPhase}
  {taskType runnerId : String} {id : ℕ} {f : SystemTask → SystemTask} {cond : SystemTask → Bool} {t : SystemTask}
  {now : ℤ} {taskId lockedBy result errorMessage : String} {status : SystemTaskStatus}

inductive SystemTaskStep (op : SystemTaskOp) (m : SystemTaskMem) :
    SystemTaskPhase → SystemTaskPhase → SystemTaskMem → Prop
  | timed : SystemTaskStep op m .idle (.timed m.now) m
  | created {taskId taskType payload state task m'}
      (hop : op = .create taskId taskType payload state)
      (hinsert : m.insertTask taskId taskType payload state = some (task, m')) :
      SystemTaskStep op m .idle (.done (.ok (.created task))) m'
  | read {id : ℕ} {taskType runnerId lockUntil now task}
      (hop : op = .claim id taskType runnerId lockUntil) (htask : task ∈ m.tasks)
      (hpending : SystemTaskMem.isPending id taskType task = true) :
      SystemTaskStep op m (.timed now) (.read now task) m
  | contended {now : ℤ} {task} : SystemTaskStep op m (.read now task) (.contended now task) m
  | acquired {id : ℕ} {taskType runnerId lockUntil now task m'}
      (hop : op = .claim id taskType runnerId lockUntil)
      (hinsert : m.insertLock ⟨taskType, task.taskId, runnerId, lockUntil, now⟩ = some m') :
      SystemTaskStep op m (.read now task) (.locked now task) m'
  | stale {now : ℤ} {task expiredTaskId} :
      SystemTaskStep op m (.contended now task) (.stale now task expiredTaskId) m
  | tookOver {id : ℕ} {taskType runnerId lockUntil now task expiredTaskId p' m'}
      (hop : op = .claim id taskType runnerId lockUntil)
      (hupdate : m.takeOverLock taskType task.taskId runnerId now lockUntil = some m')
      (hp' : p' = .tookOver now task expiredTaskId ∨ p' = .locked now task) :
      SystemTaskStep op m (.stale now task expiredTaskId) p' m'
  | expired {id : ℕ} {taskType runnerId lockUntil now task expiredTaskId}
      (hop : op = .claim id taskType runnerId lockUntil) :
      SystemTaskStep op m (.tookOver now task expiredTaskId) (.locked now task)
        (m.markSystemTaskLeaseExpired expiredTaskId)
  | marked {id : ℕ} {taskType runnerId lockUntil now task m'}
      (hop : op = .claim id taskType runnerId lockUntil)
      (hupdate : m.markRunning id taskType runnerId now = some m') :
      SystemTaskStep op m (.locked now task) .marked m'
  | claimed {task} : SystemTaskStep op m .marked (.done (.ok (.claimed task))) m
  | abandoning {p : SystemTaskPhase} {now task err}
      (hp : p = .locked now task ∨ ∃ expiredTaskId, p = .tookOver now task expiredTaskId) :
      SystemTaskStep op m p (.abandoning task err) m
  | abandoned {id : ℕ} {taskType runnerId lockUntil task err}
      (hop : op = .claim id taskType runnerId lockUntil) :
      SystemTaskStep op m (.abandoning task err) (.done (err.elim (.ok .notClaimed) .error))
        (m.releaseSystemTaskLock task.taskId runnerId)
  | wrote {taskId lockedBy state now m'}
      (hop : op = .updateState taskId lockedBy state) (hupdate : m.writeState taskId lockedBy state now = some m') :
      SystemTaskStep op m (.timed now) (.done (.ok .done)) m'
  | renewed {taskId lockedBy : String} {lockUntil now m'}
      (hop : op = .renew taskId lockedBy lockUntil) (hupdate : m.renewLock taskId lockedBy lockUntil now = some m') :
      SystemTaskStep op m (.timed now) (.done (.ok .done)) m'
  | finished {taskId lockedBy result errorMessage : String} {status now m'}
      (hop : op = .finish taskId lockedBy status result errorMessage)
      (hupdate : m.writeResult taskId lockedBy status result errorMessage now = some m') :
      SystemTaskStep op m (.timed now) .finished m'
  | released {taskId lockedBy result errorMessage : String} {status}
      (hop : op = .finish taskId lockedBy status result errorMessage) :
      SystemTaskStep op m .finished (.done (.ok .done)) (m.releaseSystemTaskLock taskId lockedBy)
  | listed {now : ℤ} (hop : op = .expire) :
      SystemTaskStep op m (.timed now) (.sweep now (m.staleLocks now)) m
  | swept {now : ℤ} {lock rest} (hop : op = .expire) :
      SystemTaskStep op m (.sweeping now lock rest) (.swept now lock rest)
        (m.markSystemTaskLeaseExpired lock.taskId)
  | deleted {now : ℤ} {lock rest} (hop : op = .expire) :
      SystemTaskStep op m (.swept now lock rest) (.sweep now rest) (m.deleteStaleLock lock now)
  | failed {p : SystemTaskPhase} (err : Option SystemTaskErr) :
      SystemTaskStep op m p (.done (err.elim (.ok .notClaimed) .error)) m

theorem SystemTaskStep.of_error {err : SystemTaskErr}
    (h : some (done (.error err), m) = some (p', m')) : SystemTaskStep op m p p' m' := by
  cases h
  exact .failed (some err)

theorem SystemTaskStep.of_notClaimed
    (h : some (done (.ok .notClaimed), m) = some (p', m')) : SystemTaskStep op m p p' m' := by
  cases h
  exact .failed none

theorem claimSystemTaskStmt_step {lockUntil : ℤ}
    (h : claimSystemTaskStmt id taskType runnerId lockUntil e p m = some (p', m')) :
    SystemTaskStep (.claim id taskType runnerId lockUntil) m p p' m' := by
  unfold claimSystemTaskStmt at h
  split at h
  · cases h
    exact .timed
  · split at h
    · exact .of_error h
    split at h
    · exact .of_notClaimed h
    rename_i hfind
    cases h
    exact .read rfl (mem_of_find?_eq_some hfind) (find?_some hfind)
  · -- `acquireSystemTaskLock`
    split at h
    · cases h
      exact .contended
    split at h <;> cases h
    · exact .contended
    · exact .acquired rfl ‹_›
  · -- `contended`
    split at h
    · exact .of_error h
    split at h
    · exact .of_notClaimed h
    split at h
    · exact .of_notClaimed h
    · cases h
      exact .stale
  · -- `stale`
    split at h
    · exact .of_error h
    split at h
    · exact .of_notClaimed h
    split at h <;> cases h
    · exact .tookOver rfl ‹_› (.inl rfl)
    · exact .tookOver rfl ‹_› (.inr rfl)
  · -- `tookOver`
    split at h <;> cases h
    · exact .abandoning (.inr ⟨_, rfl⟩)
    · exact .expired rfl
  · -- `locked`
    split at h
    · cases h
      exact .abandoning (.inl rfl)
    split at h <;> cases h
    · exact .abandoning (.inl rfl)
    · exact .marked rfl ‹_›
  · -- `marked`
    split at h
    · exact .of_error h
    split at h
    · exact .of_error h
    · cases h
      exact .claimed
  · obtain ⟨rfl, hm⟩ := Prod.mk.inj (some.inj h)
    split at hm <;> subst hm
    · exact .failed _
    · exact .abandoned rfl
  · cases h

theorem heldUpdateStmt_step {write : ℤ → SystemTaskMem → Option SystemTaskMem}
    (h : heldUpdateStmt write e p m = some (p', m'))
    (hstep : ∀ now, write now m = some m' → SystemTaskStep op m (.timed now) (.done (.ok .done)) m') :
    SystemTaskStep op m p p' m' := by
  unfold heldUpdateStmt at h
  split at h
  · cases h
    exact .timed
  · split at h
    · exact .of_error h
    split at h
    · exact .of_error h
    · cases h
      exact hstep _ ‹_›
  · cases h

theorem SystemTaskOp.stmt_step (h : op.stmt e p m = some (p', m')) : SystemTaskStep op m p p' m' := by
  cases op with
  | claim => exact claimSystemTaskStmt_step h
  | create taskId taskType payload state =>
    simp only [stmt, createSystemTaskStmt] at h
    split at h
    · split at h
      · exact .of_error h
      split at h
      · exact .of_error h
      · cases h
        exact .created rfl ‹_›
    · cases h
  | updateState => exact heldUpdateStmt_step h fun now hwrite => .wrote rfl hwrite
  | renew => exact heldUpdateStmt_step h fun now hwrite => .renewed rfl hwrite
  | finish taskId lockedBy status result errorMessage =>
    simp only [stmt, finishSystemTaskStmt] at h
    split at h
    · cases h
      exact .timed
    · split at h
      · exact .of_error h
      split at h
      · exact .of_error h
      · cases h
        exact .finished rfl ‹_›
    · split at h
      · exact .of_error h
      · cases h
        exact .released rfl
    · cases h
  | expire =>
    simp only [stmt, expireStaleSystemTaskLocksStmt] at h
    split at h
    · cases h
      exact .timed
    · split at h
      · exact .of_error h
      · cases h
        exact .listed rfl
    · split at h
      · exact .of_error h
      · cases h
        exact .swept rfl
    · split at h
      · exact .of_error h
      · cases h
        exact .deleted rfl
    · cases h

structure SameTask (t t' : SystemTask) : Prop where
  id : t'.id = t.id
  taskId : t'.taskId = t.taskId
  type : t'.type = t.type

inductive TaskChange (op : SystemTaskOp) (m : SystemTaskMem) (p' : SystemTaskPhase) (t t' : SystemTask) : Prop
  | keep (hstatus : t'.status = t.status) (hkey : t'.activeKey = t.activeKey) (hby : t'.lockedBy = t.lockedBy)
  | mark {runnerId : String} {lockUntil} (hop : op = .claim t.id t.type runnerId lockUntil) (hp' : p' = .marked)
      (hpending : t.status = .pending) (hstatus : t'.status = .running) (hkey : t'.activeKey = t.activeKey)
      (hby : t'.lockedBy = runnerId)
  | finish {status : SystemTaskStatus} {result errorMessage}
      (hop : op = .finish t.taskId t.lockedBy status result errorMessage) (hp' : p' = .finished)
      (hrunning : t.status = .running)
      (hlock : ∃ lock ∈ m.locks, lock.taskId = t.taskId ∧ lock.lockedBy = t.lockedBy) (hstatus : t'.status = status)
      (hkey : t'.activeKey = none) (hby : t'.lockedBy = t.lockedBy)
  | expire (hrunning : t.status = .running) (hstatus : t'.status = .failed) (hkey : t'.activeKey = none)
      (hby : t'.lockedBy = t.lockedBy)

inductive TasksStep (op : SystemTaskOp) (m : SystemTaskMem) (p' : SystemTaskPhase) (m' : SystemTaskMem) : Prop
  | rows (g : SystemTask → SystemTask) (hrows : ∀ t ∈ m.tasks, SameTask t (g t) ∧ TaskChange op m p' t (g t))
      (htasks : m'.tasks = m.tasks.map g) (hid : m'.nextId = m.nextId)
  | insert (task : SystemTask) (hnew : task.id = m.nextId) (hpending : task.status = .pending)
      (hkey : task.activeKey = some task.type)
      (hfree : ∀ t ∈ m.tasks, t.taskId ≠ task.taskId ∧ t.activeKey ≠ task.activeKey)
      (htasks : m'.tasks = m.tasks ++ [task]) (hid : m'.nextId = m.nextId + 1)

theorem TasksStep.of_same (htasks : m'.tasks = m.tasks) (hid : m'.nextId = m.nextId) : TasksStep op m p' m' :=
  .rows id (fun _ _ => ⟨⟨rfl, rfl, rfl⟩, .keep rfl rfl rfl⟩) (htasks.trans (map_id _).symm) hid

theorem SystemTaskMem.updateTasks_some (h : m.updateTasks cond f = some m') :
    (∃ t ∈ m.tasks, cond t = true) ∧ m' = { m with tasks := m.tasks.map fun t => if cond t then f t else t } := by
  unfold updateTasks at h
  split_ifs at h with hany
  · exact ⟨any_eq_true.1 hany, (some.inj h).symm⟩

theorem TasksStep.of_update (hf : ∀ t ∈ m.tasks, cond t = true → SameTask t (f t) ∧ TaskChange op m p' t (f t))
    (h : m.updateTasks cond f = some m') : TasksStep op m p' m' := by
  obtain ⟨-, rfl⟩ := updateTasks_some h
  refine .rows (fun t => if cond t then f t else t) ?_ rfl rfl
  intro t ht
  by_cases hcond : cond t = true
  · simpa only [hcond, if_true] using hf t ht hcond
  · rw [if_neg hcond]
    exact ⟨⟨rfl, rfl, rfl⟩, .keep rfl rfl rfl⟩

theorem SystemTaskMem.isPending_iff {taskType : String} :
    isPending id taskType t = true ↔ t.id = id ∧ t.type = taskType ∧ t.status = .pending := by
  simp [isPending, and_assoc]

theorem SystemTaskMem.isHeld_iff {taskId lockedBy : String} :
    m.isHeld taskId lockedBy now t = true ↔ t.taskId = taskId ∧ t.status = .running ∧ t.lockedBy = lockedBy ∧
      ∃ lock ∈ m.locks, lock.taskId = t.taskId ∧ lock.lockedBy = lockedBy ∧ now ≤ lock.lockedUntil := by
  simp [isHeld, holdsLease, and_assoc]

def SystemTask.expireLease (taskId : String) (now : ℤ) (t : SystemTask) : SystemTask :=
  if t.taskId == taskId && t.status == .running then
    { t with status := .failed, activeKey := none, error := "task lease expired", updatedAt := now }
  else t

theorem SystemTaskMem.mark_eq (taskId : String) (m : SystemTaskMem) :
    m.markSystemTaskLeaseExpired taskId = { m with tasks := m.tasks.map (expireLease taskId m.now) } := by
  unfold markSystemTaskLeaseExpired updateTasks
  split_ifs with hany
  · rfl
  have hsame : m.tasks.map (expireLease taskId m.now) = m.tasks := by
    conv_rhs => rw [← map_id m.tasks]
    apply map_congr_left
    intro t ht
    exact if_neg fun hcond => hany (any_eq_true.2 ⟨t, ht, hcond⟩)
  rw [hsame]
  rfl

theorem TasksStep.of_expired (taskId : String) : TasksStep op m p' (m.markSystemTaskLeaseExpired taskId) := by
  rw [mark_eq]
  refine .rows (expireLease taskId m.now) ?_ rfl rfl
  intro t _
  unfold expireLease
  split_ifs with hcond
  · have hrunning : t.taskId = taskId ∧ t.status = .running := by simpa using hcond
    exact ⟨⟨rfl, rfl, rfl⟩, .expire hrunning.2 rfl rfl rfl⟩
  · exact ⟨⟨rfl, rfl, rfl⟩, .keep rfl rfl rfl⟩

theorem SystemTaskMem.updateLocks_some {cond : SystemTaskLock → Bool} {f : SystemTaskLock → SystemTaskLock}
    (h : m.updateLocks cond f = some m') :
    (∃ l ∈ m.locks, cond l = true) ∧ m' = { m with locks := m.locks.map fun l => if cond l then f l else l } := by
  unfold updateLocks at h
  split_ifs at h with hany
  · exact ⟨any_eq_true.1 hany, (some.inj h).symm⟩

theorem SystemTaskMem.insertLock_some {lock : SystemTaskLock} (h : m.insertLock lock = some m') :
    (∀ l ∈ m.locks, l.type ≠ lock.type) ∧ m' = { m with locks := m.locks ++ [lock] } := by
  unfold insertLock at h
  split_ifs at h with hany
  refine ⟨?_, (some.inj h).symm⟩
  intro l hl htype
  exact hany (any_eq_true.2 ⟨l, hl, by simpa using htype⟩)

theorem SystemTaskStep.tasks (h : SystemTaskStep op m p p' m') : TasksStep op m p' m' := by
  cases h with
  | created hop hinsert =>
    unfold insertTask at hinsert
    split_ifs at hinsert with hany
    cases hinsert
    refine .insert _ rfl rfl rfl ?_ rfl rfl
    intro t ht
    apply not_or.1
    intro htaken
    exact hany (any_eq_true.2 ⟨t, ht, by simpa using htaken⟩)
  | acquired hop hinsert =>
    obtain ⟨-, rfl⟩ := insertLock_some hinsert
    exact .of_same rfl rfl
  | tookOver hop hupdate | renewed hop hupdate =>
    obtain ⟨-, rfl⟩ := updateLocks_some hupdate
    exact .of_same rfl rfl
  | expired | swept => exact .of_expired _
  | marked hop hupdate =>
    refine .of_update ?_ hupdate
    intro t _ hcond
    obtain ⟨rfl, rfl, hpending⟩ := isPending_iff.1 hcond
    exact ⟨⟨rfl, rfl, rfl⟩, .mark hop rfl hpending rfl rfl rfl⟩
  | wrote hop hupdate =>
    refine .of_update ?_ hupdate
    intro t _ _
    exact ⟨⟨rfl, rfl, rfl⟩, .keep rfl rfl rfl⟩
  | finished hop hupdate =>
    refine .of_update ?_ hupdate
    intro t _ hcond
    obtain ⟨rfl, hrunning, rfl, lock, hlock, hid, hby, -⟩ := isHeld_iff.1 hcond
    exact ⟨⟨rfl, rfl, rfl⟩, .finish hop rfl hrunning ⟨lock, hlock, hid, hby⟩ rfl rfl rfl⟩
  | timed | read | contended | stale | claimed | abandoning | abandoned | released | listed | deleted | failed =>
    exact .of_same rfl rfl

theorem TasksStep.back (h : TasksStep op m p' m') {t' : SystemTask} (ht' : t' ∈ m'.tasks) :
    (∃ t ∈ m.tasks, SameTask t t' ∧ TaskChange op m p' t t') ∨ t'.id = m.nextId ∧ t'.status = .pending := by
  cases h with
  | rows g hrows htasks =>
    rw [htasks] at ht'
    obtain ⟨t, ht, rfl⟩ := mem_map.1 ht'
    exact .inl ⟨t, ht, hrows t ht⟩
  | insert task hnew hpending hkey hfree htasks =>
    rw [htasks] at ht'
    rcases mem_append.1 ht' with ht | ht
    · exact .inl ⟨t', ht, ⟨rfl, rfl, rfl⟩, .keep rfl rfl rfl⟩
    · obtain rfl := mem_singleton.1 ht
      exact .inr ⟨hnew, hpending⟩

theorem TasksStep.forth (h : TasksStep op m p' m') (ht : t ∈ m.tasks) :
    ∃ t' ∈ m'.tasks, SameTask t t' ∧ TaskChange op m p' t t' := by
  cases h with
  | rows g hrows htasks =>
    rw [htasks]
    exact ⟨g t, mem_map_of_mem ht, hrows t ht⟩
  | insert task hnew hpending hkey hfree htasks =>
    rw [htasks]
    exact ⟨t, mem_append_left _ ht, ⟨rfl, rfl, rfl⟩, .keep rfl rfl rfl⟩

/-- A finish ends its task; its callers pass `succeeded` or `failed`. -/
def SystemTaskOp.Ends : SystemTaskOp → Prop
  | .finish _ _ status _ _ => status.active = false
  | _ => True

namespace TaskChange

variable {t t' : SystemTask}

section

variable (h : TaskChange op m p' t t')
include h

theorem key : t'.activeKey = t.activeKey ∨ t'.activeKey = none := by
  cases h with
  | keep hstatus hkey | mark hop hp' hpending hstatus hkey => exact .inl hkey
  | finish hop hp' hrunning hlock hstatus hkey | expire hrunning hstatus hkey => exact .inr hkey

theorem active (hop : op.Ends) (hactive : t'.status.active = true) :
    t.status.active = true ∧ t'.activeKey = t.activeKey := by
  cases h with
  | keep hstatus hkey => exact ⟨hstatus ▸ hactive, hkey⟩
  | mark hop' hp' hpending hstatus hkey =>
    rw [hpending]
    exact ⟨rfl, hkey⟩
  | finish hop' hp' hrunning hlock hstatus =>
    rw [hop'] at hop
    rw [hstatus] at hactive
    exact absurd (hactive.symm.trans hop) (by decide)
  | expire hrunning hstatus =>
    rw [hstatus] at hactive
    cases hactive

/-- **The end of a task is final.** -/
theorem final (hfinal : t.status.active = false) : t'.status = t.status := by
  cases h with
  | keep hstatus => exact hstatus
  | mark hop hp' hpending =>
    rw [hpending] at hfinal
    cases hfinal
  | finish hop hp' hrunning | expire hrunning =>
    rw [hrunning] at hfinal
    cases hfinal

theorem claimed (hop : op.Ends) (hclaimed : t.status ≠ .pending) : t'.status ≠ .pending ∧ t'.lockedBy = t.lockedBy := by
  cases h with
  | keep hstatus hkey hby => exact ⟨hstatus ▸ hclaimed, hby⟩
  | mark hop' hp' hpending => exact absurd hpending hclaimed
  | finish hop' hp' hrunning hlock hstatus hkey hby =>
    rw [hop'] at hop
    refine ⟨?_, hby⟩
    intro hpending
    rw [← hstatus, hpending] at hop
    cases hop
  | expire hrunning hstatus hkey hby =>
    rw [hstatus]
    exact ⟨by decide, hby⟩

end

end TaskChange

structure DistinctTasks (t t' : SystemTask) : Prop where
  id : t.id ≠ t'.id
  taskId : t.taskId ≠ t'.taskId
  key : t.activeKey = t'.activeKey → t.activeKey = none

instance : Std.Symm DistinctTasks where
  symm _ _ h := ⟨h.id.symm, h.taskId.symm, fun hkey => hkey.trans (h.key hkey.symm)⟩

structure TasksFit (m : SystemTaskMem) : Prop where
  distinct : m.tasks.Pairwise DistinctTasks
  fresh : ∀ t ∈ m.tasks, t.id < m.nextId
  keyed : ∀ t ∈ m.tasks, t.status.active = true → t.activeKey = some t.type

namespace TasksFit

variable {t t' : SystemTask}

section

variable (h : TasksFit m)
include h

section

variable (ht : t ∈ m.tasks)
include ht

section

variable (ht' : t' ∈ m.tasks)
include ht'

theorem eq_of_id (hid : t.id = t'.id) : t = t' := by
  by_contra hne
  exact (h.distinct.forall ht ht' hne).id hid

theorem eq_of_taskId (hid : t.taskId = t'.taskId) : t = t' := by
  by_contra hne
  exact (h.distinct.forall ht ht' hne).taskId hid

/-- **One active task per type.** -/
theorem eq_of_active (hactive : t.status.active = true)
    (hactive' : t'.status.active = true) (htype : t.type = t'.type) : t = t' := by
  by_contra hne
  have hkey := h.keyed t ht hactive
  have hkey' := h.keyed t' ht' hactive'
  have hnone := (h.distinct.forall ht ht' hne).key (by rw [hkey, hkey', htype])
  rw [hkey] at hnone
  cases hnone

end

end

theorem step (hop : op.Ends) (hst : TasksStep op m p' m') : TasksFit m' := by
  cases hst with
  | rows g hrows htasks hid =>
    refine ⟨?_, ?_, ?_⟩
    · rw [htasks, pairwise_map]
      apply h.distinct.imp_of_mem
      intro t t' ht ht' hdistinct
      obtain ⟨hsame, hchange⟩ := hrows t ht
      obtain ⟨hsame', hchange'⟩ := hrows t' ht'
      refine ⟨?_, ?_, ?_⟩
      · rw [hsame.id, hsame'.id]
        exact hdistinct.id
      · rw [hsame.taskId, hsame'.taskId]
        exact hdistinct.taskId
      intro hkey
      rcases hchange.key with heq | hnone
      · rcases hchange'.key with heq' | hnone'
        · rw [heq]
          exact hdistinct.key (heq.symm.trans (hkey.trans heq'))
        · exact hkey.trans hnone'
      · exact hnone
    · rw [htasks, hid]
      intro t' ht'
      obtain ⟨t, ht, rfl⟩ := mem_map.1 ht'
      rw [(hrows t ht).1.id]
      exact h.fresh t ht
    · rw [htasks]
      intro t' ht' hactive
      obtain ⟨t, ht, rfl⟩ := mem_map.1 ht'
      obtain ⟨hbefore, hkey⟩ := (hrows t ht).2.active hop hactive
      rw [hkey, (hrows t ht).1.type]
      exact h.keyed t ht hbefore
  | insert task hnew hpending hkey hfree htasks hid =>
    refine ⟨?_, ?_, ?_⟩
    · rw [htasks, pairwise_append]
      refine ⟨h.distinct, pairwise_singleton _ _, ?_⟩
      intro t ht t' ht'
      obtain rfl := mem_singleton.1 ht'
      have hlt := h.fresh t ht
      refine ⟨?_, (hfree t ht).1, fun heq => absurd heq (hfree t ht).2⟩
      rw [hnew]
      omega
    · rw [htasks, hid]
      intro t ht
      rcases mem_append.1 ht with ht | ht
      · have hlt := h.fresh t ht
        omega
      · obtain rfl := mem_singleton.1 ht
        omega
    · rw [htasks]
      intro t ht hactive
      rcases mem_append.1 ht with ht | ht
      · exact h.keyed t ht hactive
      · obtain rfl := mem_singleton.1 ht
        exact hkey

end

end TasksFit

/-- The task that a call has made a running one, and has not lost to an error since, with its runner -/
def claimOf : SystemTaskOp → SystemTaskPhase → Option (ℕ × String)
  | .claim id _ runnerId _, .marked | .claim id _ runnerId _, .done (.ok (.claimed _)) => some (id, runnerId)
  | _, _ => none

def ClaimShows (c : ℕ × String) (m : SystemTaskMem) : Prop :=
  ∃ t ∈ m.tasks, t.id = c.1 ∧ t.status ≠ .pending ∧ t.lockedBy = c.2

theorem ClaimShows.step {c : ℕ × String} (h : ClaimShows c m) (hop : op.Ends) (hst : TasksStep op m p' m') :
    ClaimShows c m' := by
  obtain ⟨t, ht, hid, hclaimed, hby⟩ := h
  obtain ⟨t', ht', hsame, hchange⟩ := hst.forth ht
  obtain ⟨hclaimed', hby'⟩ := hchange.claimed hop hclaimed
  exact ⟨t', ht', hsame.id.trans hid, hclaimed', hby'.trans hby⟩

theorem SystemTaskMem.markRunning_pending
    (h : m.markRunning id taskType runnerId now = some m') : ∃ t ∈ m.tasks, t.id = id ∧ t.status = .pending := by
  obtain ⟨⟨t, ht, hcond⟩, -⟩ := updateTasks_some h
  obtain ⟨hid, -, hpending⟩ := isPending_iff.1 hcond
  exact ⟨t, ht, hid, hpending⟩

theorem SystemTaskMem.markRunning_row (h : m.markRunning id taskType runnerId now = some m') :
    ∃ t ∈ m'.tasks, t.id = id ∧ t.status = .running ∧ t.lockedBy = runnerId := by
  obtain ⟨⟨t, ht, hcond⟩, rfl⟩ := updateTasks_some h
  refine ⟨_, mem_map_of_mem ht, ?_⟩
  simp only [hcond, if_true, and_true]
  exact (isPending_iff.1 hcond).1

theorem SystemTaskStep.claimOf_cases {c : ℕ × String} (h : SystemTaskStep op m p p' m') (hp' : claimOf op p' = some c) :
    claimOf op p = some c ∨ ClaimShows c m' ∧ ∃ t ∈ m.tasks, t.id = c.1 ∧ t.status = .pending := by
  cases h with
  | marked hop hupdate =>
    subst hop
    cases hp'
    obtain ⟨t, ht, hid, hrunning, hby⟩ := markRunning_row hupdate
    exact .inr ⟨⟨t, ht, hid, by rw [hrunning]; decide, hby⟩, markRunning_pending hupdate⟩
  | claimed => cases op <;> exact .inl hp'
  | @failed _ err | @abandoned _ _ _ _ _ err => cases op <;> cases err <;> cases hp'
  | @listed now => cases op <;> cases hlocks : m.staleLocks now <;> rw [hlocks] at hp' <;> cases hp'
  | @deleted _ _ rest => cases op <;> cases rest <;> cases hp'
  | tookOver _ _ hp => rcases hp with rfl | rfl <;> cases op <;> cases hp'
  | _ => cases op <;> cases hp'

theorem SystemTaskStep.finish_changes
    (h : SystemTaskStep (.finish taskId lockedBy status result errorMessage) m p p' m') (hne : m'.tasks ≠ m.tasks) :
    ∃ now, m.writeResult taskId lockedBy status result errorMessage now = some m' := by
  cases h with
  | finished hop hupdate =>
    obtain ⟨rfl, rfl, rfl, rfl, rfl⟩ := finish.inj hop
    exact ⟨_, hupdate⟩
  | created hop | acquired hop | tookOver hop | expired hop | marked hop | wrote hop | renewed hop | swept hop =>
    cases hop
  | timed | read | contended | stale | claimed | abandoning | abandoned | released | listed | deleted | failed =>
    exact absurd rfl hne

section Runs

variable {ι : Type} [DecidableEq ι] {ops : ι → SystemTaskOp} {s s' : Shared ι SystemTaskPhase SystemTaskMem}
variable {ev : SharedEvent ι SystemTaskEnv ℤ}

abbrev SystemTaskMove (ι : Type) :=
  Shared ι SystemTaskPhase SystemTaskMem × SharedEvent ι SystemTaskEnv ℤ × Shared ι SystemTaskPhase SystemTaskMem

variable {ms : List (SystemTaskMove ι)} {mv : SystemTaskMove ι}

structure SystemTaskStart (s : Shared ι SystemTaskPhase SystemTaskMem) : Prop where
  idle : ∀ i, s.phase i = .idle
  tables : TasksFit s.mem

structure ClaimsFit (ops : ι → SystemTaskOp) (s : Shared ι SystemTaskPhase SystemTaskMem) : Prop where
  tables : TasksFit s.mem
  shows : ∀ i, ∀ c ∈ claimOf (ops i) (s.phase i), ClaimShows c s.mem
  once : s.Once fun i p => (claimOf (ops i) p).map Prod.fst

omit [DecidableEq ι] in
theorem SystemTaskStart.fits (h : SystemTaskStart s) : ClaimsFit ops s := by
  have hnone : ∀ i, claimOf (ops i) (s.phase i) = none := by
    intro i
    rw [h.idle i]
    cases ops i <;> rfl
  exact ⟨h.tables, fun i c hc => by simp [hnone] at hc, fun i j id hi => by simp [hnone] at hi⟩

namespace ClaimsFit

variable (h : ClaimsFit ops s)
include h

theorem call {i : ι} (hends : ∀ i, (ops i).Ends)
    (hst : (ops i).stmt e (s.phase i) s.mem = some (p', m')) : ClaimsFit ops ⟨m', update s.phase i p'⟩ := by
  have hstep := stmt_step hst
  have htasks := hstep.tasks
  refine ⟨h.tables.step (hends i) htasks, ?_, h.once.update fun id hid => ?_⟩
  · refine (forall_update_iff s.phase fun j p => ∀ c ∈ claimOf (ops j) p, ClaimShows c m').2
      ⟨fun c hc => ?_, fun j _ c hc => (h.shows j c hc).step (hends i) htasks⟩
    rcases hstep.claimOf_cases hc with hold | ⟨hnew, -⟩
    · exact (h.shows i c hold).step (hends i) htasks
    · exact hnew
  -- a task that is claimed now was pending, and no other call has claimed it
  obtain ⟨c, hc, rfl⟩ := map_eq_some_iff.1 hid
  rcases hstep.claimOf_cases hc with hold | ⟨-, t, ht, htask, hpending⟩
  · exact .inl (by rw [hold]; rfl)
  refine .inr fun j _ hj => ?_
  obtain ⟨c', hc', heq⟩ := map_eq_some_iff.1 hj
  obtain ⟨t', ht', htask', hclaimed, -⟩ := h.shows j c' hc'
  obtain rfl := h.tables.eq_of_id ht ht' (htask.trans (heq.symm.trans htask'.symm))
  exact hclaimed hpending

theorem next (hends : ∀ i, (ops i).Ends) : ClaimsFit ops ((systemTaskProgram ops).next s ev) := by
  apply next_keeps h
  · rintro i e p m - hst
    exact h.call hends hst
  · rintro v -
    exact ⟨⟨h.tables.distinct, h.tables.fresh, h.tables.keyed⟩, h.shows, h.once⟩

theorem move (hends : ∀ i, (ops i).Ends) (hmv : moves (systemTaskProgram ops).step s mv s') : ClaimsFit ops s' := by
  obtain ⟨ev, -, rfl⟩ := eq_of_moves hmv
  exact h.next hends

end ClaimsFit

theorem systemTask_tasks (ops : ι → SystemTaskOp) (s : Shared ι SystemTaskPhase SystemTaskMem)
    (ev : SharedEvent ι SystemTaskEnv ℤ) :
    ((systemTaskProgram ops).next s ev).mem.tasks = s.mem.tasks ∨
      ∃ i e p, ev = .call i e ∧ SystemTaskStep (ops i) s.mem (s.phase i) p ((systemTaskProgram ops).next s ev).mem ∧
        ((systemTaskProgram ops).next s ev).phase i = p := by
  rcases (systemTaskProgram ops).next_cases s ev with heq | ⟨i, e, p, m, hev, hst, heq⟩ | ⟨v, -, heq⟩
  · rw [heq]
    exact .inl rfl
  · rw [heq]
    exact .inr ⟨i, e, p, hev, stmt_step hst, update_self ..⟩
  · rw [heq]
    exact .inl rfl

theorem systemTask_final (ops : ι → SystemTaskOp) (ev : SharedEvent ι SystemTaskEnv ℤ)
    (ht : t ∈ s.mem.tasks) (hfinal : t.status.active = false) :
    ∃ t' ∈ ((systemTaskProgram ops).next s ev).mem.tasks,
      t'.id = t.id ∧ t'.taskId = t.taskId ∧ t'.status = t.status := by
  rcases systemTask_tasks ops s ev with hsame | ⟨i, e, p, -, hstep, -⟩
  · rw [hsame]
    exact ⟨t, ht, rfl, rfl, rfl⟩
  · obtain ⟨t', ht', hsame, hchange⟩ := hstep.tasks.forth ht
    exact ⟨t', ht', hsame.id, hsame.taskId, hchange.final hfinal⟩

def HasClaimed (id : ℕ) (runnerId : String) (s : Shared ι SystemTaskPhase SystemTaskMem) : Prop :=
  ∃ t ∈ s.mem.tasks, t.id = id ∧ t.status ≠ .pending ∧ t.lockedBy = runnerId

variable {runnerId : String} {taskId : String}

theorem HasClaimed.next (h : HasClaimed id runnerId s) (hends : ∀ i, (ops i).Ends) :
    HasClaimed id runnerId ((systemTaskProgram ops).next s ev) := by
  rcases systemTask_tasks ops s ev with hsame | ⟨i, e, p, -, hstep, -⟩
  · rwa [HasClaimed, hsame]
  · exact ClaimShows.step (c := (id, runnerId)) h (hends i) hstep.tasks

theorem claim_of_change (hbefore : ¬ HasClaimed id runnerId s)
    (hafter : HasClaimed id runnerId ((systemTaskProgram ops).next s ev)) :
    ∃ i e taskType lockUntil, ev = .call i e ∧ ops i = .claim id taskType runnerId lockUntil ∧
      ((systemTaskProgram ops).next s ev).phase i = .marked := by
  obtain ⟨t', ht', hid, hclaimed, hby⟩ := hafter
  rcases systemTask_tasks ops s ev with hsame | ⟨i, e, p, hev, hstep, hphase⟩
  · rw [hsame] at ht'
    exact absurd ⟨t', ht', hid, hclaimed, hby⟩ hbefore
  rcases hstep.tasks.back ht' with ⟨t, ht, hsame, hchange⟩ | ⟨-, hpending⟩
  · cases hchange with
    | keep hstatus hkey hby' =>
      exact absurd ⟨t, ht, hsame.id.symm.trans hid, hstatus ▸ hclaimed, hby'.symm.trans hby⟩ hbefore
    | @mark runnerId' lockUntil hop hp' hpending hstatus hkey hby' =>
      refine ⟨i, e, t.type, lockUntil, hev, ?_, hphase.trans hp'⟩
      rw [hop, ← hsame.id, hid, ← hby', hby]
    | finish hop hp' hrunning hlock hstatus hkey hby' | expire hrunning hstatus hkey hby' =>
      exact absurd ⟨t, ht, hsame.id.symm.trans hid, by rw [hrunning]; decide, hby'.symm.trans hby⟩ hbefore
  · exact absurd hpending hclaimed

/-- The move is a statement of `FinishSystemTask` on this task, and it has changed a row. -/
def finishesTask (ops : ι → SystemTaskOp) (taskId : String) (mv : SystemTaskMove ι) : Bool :=
  match mv.2.1 with
  | .call i _ =>
    match ops i with
    | .finish taskId' _ _ _ _ => taskId' == taskId && mv.2.2.mem.tasks != mv.1.mem.tasks
    | _ => false
  | .env _ => false

theorem finishesTask_cases (h : finishesTask ops taskId (s, ev, (systemTaskProgram ops).next s ev) = true) :
    ∃ i e lockedBy status result errorMessage now, ev = .call i e ∧
      ops i = .finish taskId lockedBy status result errorMessage ∧
      s.mem.writeResult taskId lockedBy status result errorMessage now =
        some ((systemTaskProgram ops).next s ev).mem := by
  cases ev with
  | env => cases h
  | call i e =>
    simp only [finishesTask] at h
    split at h
    · rename_i taskId' lockedBy status result errorMessage hop
      simp only [Bool.and_eq_true, beq_iff_eq, bne_iff_ne, ne_eq] at h
      obtain ⟨rfl, hne⟩ := h
      rcases systemTask_tasks ops s (.call i e) with hsame | ⟨j, e', p, hev, hstep, -⟩
      · exact absurd hsame hne
      obtain ⟨rfl, rfl⟩ := SharedEvent.call.inj hev
      rw [hop] at hstep
      obtain ⟨now, hupdate⟩ := hstep.finish_changes hne
      exact ⟨i, e, lockedBy, status, result, errorMessage, now, rfl, hop, hupdate⟩
    · cases h

theorem SystemTaskMem.writeResult_row (h : m.writeResult taskId lockedBy status result errorMessage now = some m') :
    ∃ t ∈ m.tasks, t.taskId = taskId ∧ t.status = .running ∧ t.lockedBy = lockedBy ∧
      (∃ lock ∈ m.locks, lock.taskId = taskId ∧ lock.lockedBy = lockedBy) ∧
      ∃ t' ∈ m'.tasks, t'.taskId = taskId ∧ t'.status = status := by
  obtain ⟨⟨t, ht, hcond⟩, rfl⟩ := updateTasks_some h
  obtain ⟨hid, hrunning, hby, lock, hlock, hlockId, hlockBy, -⟩ := isHeld_iff.1 hcond
  refine ⟨t, ht, hid, hrunning, hby, ⟨lock, hlock, hlockId.trans hid, hlockBy⟩, _, mem_map_of_mem ht, ?_⟩
  simp only [hcond, if_true, and_true]
  exact hid

def Unfinished (taskId : String) (s : Shared ι SystemTaskPhase SystemTaskMem) : Prop :=
  ∀ t ∈ s.mem.tasks, t.taskId = taskId → t.status.active = true

theorem finished_once (hends : ∀ i, (ops i).Ends) (hfits : ClaimsFit ops s)
    (hrun : Run (moves (systemTaskProgram ops).step) s ms s') : ms.countP (finishesTask ops taskId) ≤ 1 := by
  refine hrun.countP_le_one (A := Unfinished taskId) ?_ ?_ ?_ hfits
  · intro s mv s' hs hmv
    exact hs.move hends hmv
  · intro s mv s' hs hmv hfinish
    obtain ⟨ev, rfl, rfl⟩ := eq_of_moves hmv
    obtain ⟨i, e, lockedBy, status, result, errorMessage, now, -, hop, hupdate⟩ := finishesTask_cases hfinish
    obtain ⟨t, ht, hid, hrunning, -, -, t', ht', hid', hstatus⟩ := writeResult_row hupdate
    refine ⟨?_, ?_⟩
    · intro t1 ht1 hid1
      rw [← hs.tables.eq_of_taskId ht ht1 (hid.trans hid1.symm), hrunning]
      rfl
    intro hactive
    have hend := hends i
    rw [hop] at hend
    have hstill := hactive t' ht' hid'
    rw [hstatus] at hstill
    exact absurd (hstill.symm.trans hend) (by decide)
  · intro s mv s' hs hmv hdone hactive
    obtain ⟨ev, rfl, rfl⟩ := eq_of_moves hmv
    apply hdone
    intro t ht hid
    by_contra hfinal
    obtain ⟨t', ht', -, hid', hstatus⟩ := systemTask_final ops ev ht (Bool.not_eq_true _ ▸ hfinal)
    have hstill := hactive t' ht' (hid'.trans hid)
    rw [hstatus] at hstill
    exact hfinal hstill

def ClaimedBy (ops : ι → SystemTaskOp) (s : Shared ι SystemTaskPhase SystemTaskMem) (ms : List (SystemTaskMove ι))
    (id : ℕ) (runnerId : String) : Prop :=
  HasClaimed id runnerId s ∨ ∃ mv ∈ ms, ∃ i e taskType lockUntil, mv.2.1 = .call i e ∧
    ops i = .claim id taskType runnerId lockUntil ∧ mv.2.2.phase i = .marked

theorem HasClaimed.claimedBy (hrun : Run (moves (systemTaskProgram ops).step) s ms s')
    (h : HasClaimed id runnerId s') : ClaimedBy ops s ms id runnerId := by
  by_cases hbefore : HasClaimed id runnerId s
  · exact .inl hbefore
  right
  have hchange := hrun.exists_change (fun _ _ _ _ _ => trivial) trivial hbefore h
  obtain ⟨mv, hmv, -, hstep, hno, hyes⟩ := hchange
  rw [show mv.2.2 = (systemTaskProgram ops).next mv.1 mv.2.1 from hstep] at hyes
  obtain ⟨i, e, taskType, lockUntil, hev, hop, hp⟩ := claim_of_change hno hyes
  rw [← show mv.2.2 = (systemTaskProgram ops).next mv.1 mv.2.1 from hstep] at hp
  exact ⟨mv, hmv, i, e, taskType, lockUntil, hev, hop, hp⟩

/-- A finish that has changed the row was made by the runner that has claimed the task, while a lock row named both.
-/
structure FinishedByClaimer (ops : ι → SystemTaskOp) (s s' : Shared ι SystemTaskPhase SystemTaskMem)
    (ms : List (SystemTaskMove ι)) (taskId lockedBy : String) (mv : SystemTaskMove ι) : Prop where
  lock : ∃ lock ∈ mv.1.mem.locks, lock.taskId = taskId ∧ lock.lockedBy = lockedBy
  claimer : ∃ t ∈ mv.1.mem.tasks, t.taskId = taskId ∧ ClaimedBy ops s ms t.id lockedBy ∧
    ∀ j taskType runnerId lockUntil task, ops j = .claim t.id taskType runnerId lockUntil →
      s'.phase j = .done (.ok (.claimed task)) → runnerId = lockedBy

theorem finished_by_claimer (hends : ∀ i, (ops i).Ends) (hfits : ClaimsFit ops s)
    (hrun : Run (moves (systemTaskProgram ops).step) s ms s') (hmv : mv ∈ ms)
    (hfinish : finishesTask ops taskId mv = true) :
    ∃ i e lockedBy status result errorMessage, mv.2.1 = .call i e ∧
      ops i = .finish taskId lockedBy status result errorMessage ∧
      FinishedByClaimer ops s s' ms taskId lockedBy mv := by
  have hkeep : ∀ {a b : Shared ι SystemTaskPhase SystemTaskMem} {ls : List (SystemTaskMove ι)},
      Run (moves (systemTaskProgram ops).step) a ls b → ClaimsFit ops a → ClaimsFit ops b := by
    intro a b ls hls ha
    exact hls.inv (fun _ _ _ hs hmove => hs.move hends hmove) ha
  obtain ⟨as, bs, hms⟩ := append_of_mem hmv
  obtain ⟨a, b, hbefore, hmove, hafter⟩ := hrun.split hms
  have hb := (hkeep hbefore hfits).move hends hmove
  obtain ⟨ev, rfl, rfl⟩ := eq_of_moves hmove
  obtain ⟨i, e, lockedBy, status, result, errorMessage, now, hev, hop, hupdate⟩ := finishesTask_cases hfinish
  obtain ⟨t, ht, hid, hrunning, hby, hlock, -⟩ := writeResult_row hupdate
  have hclaimed : HasClaimed t.id lockedBy a := ⟨t, ht, rfl, by rw [hrunning]; decide, hby⟩
  refine ⟨i, e, lockedBy, status, result, errorMessage, hev, hop, hlock, t, ht, hid, ?_, ?_⟩
  · rcases hclaimed.claimedBy hbefore with hstart | ⟨mv, hmv, hclaim⟩
    · exact .inl hstart
    · exact .inr ⟨mv, hms ▸ mem_append_left _ hmv, hclaim⟩
  intro j taskType runnerId lockUntil task hopj hp
  -- the row keeps its runner until the end, where the claim shows in it
  have hend : HasClaimed t.id lockedBy s' := by
    apply hafter.inv _ (hclaimed.next hends)
    intro s mv s' hs hmv
    obtain ⟨ev, -, rfl⟩ := eq_of_moves hmv
    exact hs.next hends
  have hfits' := hkeep hafter hb
  obtain ⟨t1, ht1, hid1, -, hby1⟩ := hend
  obtain ⟨t2, ht2, hid2, -, hby2⟩ := hfits'.shows j (t.id, runnerId) (by rw [hopj, hp]; rfl)
  rw [← hby1, hfits'.tables.eq_of_id ht1 ht2 (hid1.trans hid2.symm)]
  exact hby2.symm

/-- **A system task is claimed once and finished once**, by the same runner; its end is final, and no other task of
its type is active beside it. -/
theorem system_task_once (hstart : SystemTaskStart s) (hends : ∀ i, (ops i).Ends)
    (hrun : Run (moves (systemTaskProgram ops).step) s ms s') :
    (∀ i j id taskType runnerId lockUntil task taskType' runnerId' lockUntil' task',
      ops i = .claim id taskType runnerId lockUntil → s'.phase i = .done (.ok (.claimed task)) →
      ops j = .claim id taskType' runnerId' lockUntil' → s'.phase j = .done (.ok (.claimed task')) → i = j) ∧
    (∀ taskId, ms.countP (finishesTask ops taskId) ≤ 1) ∧
    (∀ taskId, ∀ mv ∈ ms, finishesTask ops taskId mv = true → ∃ i e lockedBy status result errorMessage,
      mv.2.1 = .call i e ∧ ops i = .finish taskId lockedBy status result errorMessage ∧
        FinishedByClaimer ops s s' ms taskId lockedBy mv) ∧
    (∀ mv ∈ ms, ∀ t ∈ mv.1.mem.tasks, t.status.active = false →
      ∃ t' ∈ mv.2.2.mem.tasks, t'.id = t.id ∧ t'.status = t.status) ∧
    ∀ t ∈ s'.mem.tasks, ∀ t' ∈ s'.mem.tasks, t.status.active = true → t'.status.active = true → t.type = t'.type →
      t = t' := by
  have hfits : ClaimsFit ops s := hstart.fits
  have hend : ClaimsFit ops s' := hrun.inv (fun _ _ _ hs hmv => hs.move hends hmv) hfits
  refine ⟨?_, ?_, ?_, ?_, ?_⟩
  · intro i j id taskType runnerId lockUntil task taskType' runnerId' lockUntil' task' hi hpi hj hpj
    exact hend.once i j id (by simp [hi, hpi, claimOf]) (by simp [hj, hpj, claimOf])
  · intro taskId
    exact finished_once hends hfits hrun
  · intro taskId mv hmv hfinish
    exact finished_by_claimer hends hfits hrun hmv hfinish
  · intro mv hmv t ht hfinal
    obtain ⟨t', ht', hid, -, hstatus⟩ := systemTask_final ops mv.2.1 ht hfinal
    rw [← next_of_mem hrun mv hmv] at ht'
    exact ⟨t', ht', hid, hstatus⟩
  · intro t ht t' ht' hactive hactive' htype
    exact hend.tables.eq_of_active ht ht' hactive hactive' htype

end Runs

def sampleSystemTaskOps (i : Fin 4) : SystemTaskOp :=
  if i = 0 then .create "t" "poll" "" ""
  else if i = 1 then .claim 1 "poll" "a" 60
  else if i = 2 then .claim 1 "poll" "b" 70
  else .finish "t" "a" .succeeded "ok" ""

def sampleSystemTasks : Shared (Fin 4) SystemTaskPhase SystemTaskMem := ⟨⟨[], [], 1, 0⟩, fun _ => .idle⟩

def sampleSystemTaskEvents (is : List (Fin 4)) : List (SharedEvent (Fin 4) SystemTaskEnv ℤ) := is.map (.call · ⟨false⟩)

theorem system_task_once_two_runners :
    let next := (systemTaskProgram sampleSystemTaskOps).next
    let es := sampleSystemTaskEvents [0, 1, 2, 1, 2, 1, 1, 1, 3, 3, 2, 3, 2, 2]
    let s' := es.foldl next sampleSystemTasks
    (s'.mem.tasks.map fun t => (t.id, t.status, t.lockedBy)) = [(1, .succeeded, "a")] ∧
      (trail next sampleSystemTasks es).countP (finishesTask sampleSystemTaskOps "t") = 1 := by
  intro next es s'
  have hrun : Run (moves (systemTaskProgram sampleSystemTaskOps).step) sampleSystemTasks
      (trail next sampleSystemTasks es) s' := Run.trail next sampleSystemTasks es
  have hends : ∀ i, (sampleSystemTaskOps i).Ends := by
    intro i
    unfold sampleSystemTaskOps
    split_ifs
    · trivial
    · trivial
    · trivial
    · rfl
  have hstart : SystemTaskStart sampleSystemTasks := ⟨fun _ => rfl, .nil, by decide, by decide⟩
  have honce := (system_task_once hstart hends hrun).2.1 "t"
  have hsome : 1 ≤ (trail next sampleSystemTasks es).countP (finishesTask sampleSystemTaskOps "t") := by decide +kernel
  exact ⟨by decide +kernel, le_antisymm honce hsome⟩

end NewApi
