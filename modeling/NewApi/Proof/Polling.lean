import NewApi.Spec.TaskPolling
import NewApi.Proof.TaskBilling

/-!
# What the polling does to a task

Any number of nodes poll and sweep the same rows. `updateWithStatus_cases` says what the compare-and-swap can do; the
rest follows from one lemma for each of the updates.
-/

namespace NewApi

open Trace Function PollEvent Polling Option Bool

variable {cfg : Config} {ps : PollSetting} {now : ℤ} {cas : Cas} {t : Task} {rows : TaskTable} {o : Outcome} {t' : Task}
  {item : SunoItem} {info : TaskInfo} {s s' : Polling} {l : PollEvent} {ls : List PollEvent} {reason : Option String}
  {id : ℕ} {row row' : Task} {node : Node} {n : ℕ}

theorem updateWithStatus_cases (t : Task) (dbErr noop : Bool) (fromStatus : TaskStatus) (rows : TaskTable) :
    (∃ row, rows t.id = some row ∧ row.status = fromStatus ∧
      t.updateWithStatus dbErr noop fromStatus rows = (.won, update rows t.id (some t))) ∨
    ∃ r, r ≠ .won ∧ t.updateWithStatus dbErr noop fromStatus rows = (r, rows) := by
  unfold Task.updateWithStatus
  split
  · exact .inr ⟨.error, by decide, rfl⟩
  cases hrow : rows t.id with
  | none => exact .inr ⟨.lost, by decide, rfl⟩
  | some row =>
    dsimp only
    split_ifs with hs
    · exact .inr ⟨.lost, by decide, rfl⟩
    · exact .inr ⟨.lost, by decide, rfl⟩
    · exact .inl ⟨row, rfl, not_not.1 hs, rfl⟩

/-- The update has written the copy over a row that still had the copy's old status. -/
def Won (t : Task) (rows : TaskTable) (o : Outcome) : Prop :=
  ∃ row, rows t.id = some row ∧ row.status = t.status ∧ o.rows = Function.update rows t.id (some o.task)

theorem cas_cases {bill : Option Bill} (hid : t'.id = t.id)
    (ho : (match t'.updateWithStatus cas.dbErr cas.noop t.status rows with
      | (.won, rows') => (⟨t', rows', bill⟩ : Outcome)
      | (_, rows') => ⟨t', rows', none⟩) = o) :
    o.task = t' ∧ ((o.rows = rows ∧ o.bill = none) ∨ (Won t rows o ∧ o.bill = bill)) := by
  have hcases := updateWithStatus_cases t' cas.dbErr cas.noop t.status rows
  rw [hid] at hcases
  obtain ⟨row, hrow, hs, hcas⟩ | ⟨r, hr, hcas⟩ := hcases
  · rw [hcas] at ho
    subst ho
    exact ⟨rfl, .inr ⟨⟨row, hrow, hs, rfl⟩, rfl⟩⟩
  rw [hcas] at ho
  cases r with
  | won => exact absurd rfl hr
  | error | lost => subst ho; exact ⟨rfl, .inl ⟨rfl, rfl⟩⟩

theorem sweep_cases (ho : sweepTimedOutTask ps now cas t rows = o) :
    o.task = timedOutTask ps now t ∧ ((o.rows = rows ∧ o.bill = none) ∨
        (Won t rows o ∧ o.bill = if !t.isLegacy && decide (t.quota ≠ 0) then some .refund else none)) := by
  have hbill : (if !t.isLegacy && decide ((timedOutTask ps now t).quota ≠ 0) then some Bill.refund else none) =
      if !t.isLegacy && decide (t.quota ≠ 0) then some .refund else none := by
    cases hl : t.isLegacy <;> simp [timedOutTask, hl]
  have hid : (timedOutTask ps now t).id = t.id := rfl
  unfold sweepTimedOutTask at ho
  dsimp only at ho
  rw [hbill] at ho
  exact cas_cases hid ho

theorem suno_cases (ho : updateSunoTask cas item t rows = o) :
    (o.task = t ∨ o.task = item.apply t) ∧ ((o.rows = rows ∧ o.bill = none) ∨
        (Won t rows o ∧ o.task = item.apply t ∧ o.bill =
          if item.isFailure t && decide (t.status ≠ .failure) && decide (t.quota ≠ 0) then
            some .refund else none)) := by
  unfold updateSunoTask at ho
  split at ho
  · subst ho
    exact ⟨.inl rfl, .inl ⟨rfl, rfl⟩⟩
  have hid : (item.apply t).id = t.id := rfl
  obtain ⟨htask, hkept | ⟨hwon, hbill⟩⟩ := cas_cases hid ho
  · exact ⟨.inr htask, .inl hkept⟩
  · exact ⟨.inr htask, .inr ⟨hwon, htask, hbill⟩⟩

def VideoAnswer.taskInfo : VideoAnswer → Option TaskInfo
  | .failed => none
  | .result info body _ => info.orError body

theorem TaskInfo.apply_some (h : info.apply ps now t = some t') :
    t'.id = t.id ∧ t'.platform = t.platform ∧ t'.status = info.status := by
  unfold apply at h
  cases hs : info.status <;> rw [hs] at h <;> simp only [some.injEq, reduceCtorEq] at h <;>
    (subst h; exact ⟨rfl, rfl, rfl⟩)

theorem TaskInfo.bill_done {b : Bill} (h : info.bill t = some b) : info.status.isDone = true := by
  unfold bill at h
  cases hs : info.status <;> rw [hs] at h <;> first | rfl | exact absurd h (by simp)

theorem write_cases {bill : Option Bill} (hid : t'.id = t.id)
    (hbill : t'.status.isDone = false → bill = none) (ho : writeVideoTask cas t t' bill rows = o) :
    o.task = t' ∧ ((o.rows = rows ∧ (t.status.isDone = false → o.bill = none)) ∨ (Won t rows o ∧ o.bill = bill)) := by
  unfold writeVideoTask at ho
  split at ho
  · obtain ⟨htask, ⟨hkept, hnone⟩ | hwon⟩ := cas_cases hid ho
    · exact ⟨htask, .inl ⟨hkept, fun _ => hnone⟩⟩
    · exact ⟨htask, .inr hwon⟩
  -- the call does not wait for the write: an open copy has then stayed open and asks for none
  rename_i hkeep
  have hopen : t.status.isDone = false → bill = none := by
    intro hd
    apply hbill
    by_contra hd'
    rw [not_eq_false] at hd'
    apply hkeep
    rw [hd', Bool.true_and, decide_eq_true_eq]
    intro heq
    rw [heq, hd'] at hd
    exact Bool.noConfusion hd
  split at ho
  · have hcases := updateWithStatus_cases t' cas.dbErr cas.noop t.status rows
    rw [hid] at hcases
    obtain ⟨row, hrow, hs, hcas⟩ | ⟨r, hr, hcas⟩ := hcases
    · rw [hcas] at ho
      subst ho
      exact ⟨rfl, .inr ⟨⟨row, hrow, hs, rfl⟩, rfl⟩⟩
    rw [hcas] at ho
    subst ho
    exact ⟨rfl, .inl ⟨rfl, hopen⟩⟩
  · subst ho
    exact ⟨rfl, .inl ⟨rfl, hopen⟩⟩

theorem video_cases {answer : VideoAnswer} (ho : updateVideoSingleTask ps now cas answer t rows = o) :
    o.task.id = t.id ∧ o.task.platform = t.platform ∧ ((o.rows = rows ∧ (t.status.isDone = false → o.bill = none)) ∨
        (Won t rows o ∧ ∃ info data, answer.taskInfo = some info ∧
          info.apply ps now { t with data := data } = some o.task ∧ o.bill = info.bill t)) := by
  unfold updateVideoSingleTask at ho
  cases answer with
  | failed => subst ho; exact ⟨rfl, rfl, .inl ⟨rfl, fun _ => rfl⟩⟩
  | result raw body data =>
    dsimp only at ho
    cases hinfo : raw.orError body with
    | none =>
      rw [hinfo] at ho
      subst ho
      exact ⟨rfl, rfl, .inl ⟨rfl, fun _ => rfl⟩⟩
    | some info =>
      rw [hinfo] at ho
      dsimp only at ho
      cases happ : info.apply ps now { t with data := data } with
      | none =>
        rw [happ] at ho
        subst ho
        exact ⟨rfl, rfl, .inl ⟨rfl, fun _ => rfl⟩⟩
      | some t' =>
        rw [happ] at ho
        obtain ⟨hid, hplat, hstat⟩ := info.apply_some happ
        replace hid : t'.id = t.id := hid
        have hbill : t'.status.isDone = false → info.bill t = none := by
          intro hd
          cases hb : info.bill t with
          | none => rfl
          | some =>
            rw [hstat, TaskInfo.bill_done hb] at hd
            exact Bool.noConfusion hd
        obtain ⟨rfl, hrows⟩ := write_cases hid hbill ho
        refine ⟨hid, hplat, ?_⟩
        rcases hrows with hkept | ⟨hwon, hb⟩
        · exact .inl hkept
        · exact .inr ⟨hwon, info, data, hinfo, happ, hb⟩

def closed (rows : TaskTable) (id : ℕ) : Bool := ((rows id).map fun row => row.status.isDone).getD false

/-- The update only asks for a call when it closes an open row, and never opens a closed one. -/
structure Gated (t : Task) (rows : TaskTable) (o : Outcome) : Prop where
  id : o.task.id = t.id
  frame : ∀ id, id ≠ t.id → o.rows id = rows id
  stays : closed rows t.id = true → closed o.rows t.id = true
  closes : o.bill ≠ none → closed rows t.id = false ∧ closed o.rows t.id = true

theorem Gated.of_kept (hid : o.task.id = t.id) (hrows : o.rows = rows) (hb : o.bill = none) : Gated t rows o where
  id := hid
  frame id _ := by rw [hrows]
  stays h := by rwa [hrows]
  closes h := absurd hb h

theorem Gated.of_won (hid : o.task.id = t.id) (hw : Won t rows o)
    (hstay : t.status.isDone = true → o.task.status.isDone = true)
    (hb : o.bill ≠ none → t.status.isDone = false ∧ o.task.status.isDone = true) : Gated t rows o := by
  obtain ⟨row, hrow, hs, hrows⟩ := hw
  -- the row had the copy's old status and has the copy's new one
  have hbefore : closed rows t.id = t.status.isDone := by simp [closed, hrow, hs]
  have hafter : closed o.rows t.id = o.task.status.isDone := by simp [closed, hrows]
  refine ⟨hid, ?_, ?_, ?_⟩
  · intro id hne
    rw [hrows, update_of_ne hne]
  · rw [hbefore, hafter]
    exact hstay
  · rw [hbefore, hafter]
    exact hb

theorem sweep_gated (ht : t.status.isDone = false) (ho : sweepTimedOutTask ps now cas t rows = o) : Gated t rows o := by
  obtain ⟨htask, hrows⟩ := sweep_cases ho
  have hid : o.task.id = t.id := by rw [htask]; rfl
  have hdone : o.task.status.isDone = true := by rw [htask]; rfl
  rcases hrows with ⟨hkept, hb⟩ | ⟨hwon, -⟩
  · exact .of_kept hid hkept hb
  · exact .of_won hid hwon (fun _ => hdone) (fun _ => ⟨ht, hdone⟩)

theorem suno_gated (ht : t.status.isDone = true → (item.apply t).status = t.status)
    (ho : updateSunoTask cas item t rows = o) : Gated t rows o := by
  obtain ⟨htask, hrows⟩ := suno_cases ho
  have hid : o.task.id = t.id := by
    rcases htask with h | h
    · rw [h]
    · rw [h]; rfl
  rcases hrows with ⟨hkept, hb⟩ | ⟨hwon, happ, hb⟩
  · exact .of_kept hid hkept hb
  refine .of_won hid hwon (fun hd => ?_) (fun hsome => ?_)
  · rw [happ, ht hd, hd]
  -- a refund: the item fails a task that has not failed before
  have hcond : (item.isFailure t && decide (t.status ≠ .failure) && decide (t.quota ≠ 0)) = true := by
    by_contra hc
    exact hsome (by rw [hb, if_neg hc])
  simp only [and_eq_true, decide_eq_true_eq] at hcond
  obtain ⟨⟨hfail, hne⟩, -⟩ := hcond
  have hstatus : (item.apply t).status = .failure := by simp [SunoItem.apply, hfail]
  refine ⟨?_, by rw [happ, hstatus]; rfl⟩
  by_contra hd
  exact hne (by rw [← ht (by simpa using hd), hstatus])

theorem video_gated {answer : VideoAnswer} (ht : t.status.isDone = false)
    (ho : updateVideoSingleTask ps now cas answer t rows = o) : Gated t rows o := by
  obtain ⟨hid, -, ⟨hkept, hb⟩ | ⟨hwon, info, data, -, happ, hb⟩⟩ := video_cases ho
  · exact .of_kept hid hkept (hb ht)
  refine .of_won hid hwon (fun hd => absurd hd (by simp [ht])) (fun hsome => ⟨ht, ?_⟩)
  obtain ⟨b, hb'⟩ := ne_none_iff_exists'.1 hsome
  rw [(info.apply_some happ).2.2]
  exact TaskInfo.bill_done (hb.symm.trans hb')

/-- The calls a task can still get: those that are owed, and one more while its row is open. -/
def Polling.budget (s : Polling) (id : ℕ) : ℕ :=
  (!closed s.rows id).toNat + s.owed.countP fun c => decide (c.2.1.id = id)

theorem Gated.budget_le {s : Polling} (h : Gated t s.rows o) (n : ℕ) (node : Node) (id : ℕ) :
    (s.after n node o).budget id ≤ s.budget id := by
  unfold budget after
  rw [List.countP_append]
  by_cases hid : id = t.id
  · subst hid
    cases hb : o.bill with
    | none =>
      cases hc : closed s.rows t.id with
      | false => cases closed o.rows t.id <;> simp
      | true => simp [h.stays hc]
    | some b =>
      -- the open row pays for the call that is now owed
      obtain ⟨hopen, hclosed⟩ := h.closes (by rw [hb]; exact some_ne_none b)
      simp [hopen, hclosed, h.id]
  · have hsame : closed o.rows id = closed s.rows id := by unfold closed; rw [h.frame id hid]
    have hother : o.task.id ≠ id := by rw [h.id]; exact Ne.symm hid
    cases o.bill <;> simp [hsame, hother]

/-- A step on a copy that has a terminal status leaves the status, and a video copy is not
polled again. -/
def FromOpen (_ : Polling) : PollEvent → Prop
  | .suno _ t item => t.status.isDone = true → (item.apply t).status = t.status
  | .video _ t _ => t.status.isDone = false
  | _ => True

def PollEvent.refunds (id : ℕ) : PollEvent → Bool
  | .bill _ t .refund => decide (t.id = id)
  | _ => false

def PollEvent.settles (id : ℕ) : PollEvent → Bool
  | .bill _ t (.settle _) => decide (t.id = id)
  | _ => false

/-- What `sweepTimedOutTasks` goes through was open when it was read, and is not touched before
its turn. -/
def SweepsOpen (s : Polling) : Prop := ∀ n, ∀ t ∈ (s.nodes n).timedOut, t.status.isDone = false

theorem unfinished_open (h : t.unfinished = true) : t.status.isDone = false ∧ t.progress ≠ "100%" := by
  simp only [Task.unfinished, and_eq_true, decide_eq_true_eq, not_eq_true'] at h
  exact ⟨h.2, h.1⟩

theorem timedOut_unfinished {cutoff : ℤ} (h : t.timedOut cutoff = true) : t.unfinished = true := by
  simp only [Task.timedOut, and_eq_true] at h
  exact h.1

theorem sweepsOpen_step (h : SweepsOpen s) (hst : PollStep cfg ps s l s') : SweepsOpen s' := by
  cases hst with
  | insert | nullTasks | missingChannel => exact h
  | readTimedOut n cutoff tasks hrows =>
    apply (forall_update_iff s.nodes fun _ node => ∀ t ∈ node.timedOut, t.status.isDone = false).2
    exact ⟨fun t ht => (unfinished_open (timedOut_unfinished (hrows t ht).2)).1, fun m _ => h m⟩
  | sweep n now cas ht =>
    apply (forall_update_iff s.nodes fun _ node => ∀ t ∈ node.timedOut, t.status.isDone = false).2
    exact ⟨fun u hu => h n u (by rw [ht]; exact List.mem_cons_of_mem _ hu), fun m _ => h m⟩
  | read | suno | video | bill =>
    apply (forall_update_iff s.nodes fun _ node => ∀ t ∈ node.timedOut, t.status.isDone = false).2
    exact ⟨h _, fun m _ => h m⟩

theorem submitTask_row {env : Env} {session : BillingSession} {q : ℤ} {t t' : Task} {st st' : Store}
    (h : submitTask cfg env session t q st = (t', st')) :
    t'.status = t.status ∧ t'.progress = t.progress := by
  obtain ⟨rfl, -⟩ := Prod.mk.inj h
  exact ⟨rfl, rfl⟩

theorem taskBulkFail_row {ids : List ℕ} {id : ℕ} {row' : Task} (h : taskBulkFail ids reason rows id = some row') :
    ∃ row, rows id = some row ∧ (row' = row ∨ id ∈ ids ∧ row'.status = .failure) := by
  obtain ⟨row, hrow, hrow'⟩ := map_eq_some_iff.1 h
  refine ⟨row, hrow, ?_⟩
  split at hrow'
  · exact .inr ⟨‹_›, by rw [← hrow']⟩
  · exact .inl hrow'.symm

theorem closed_taskBulkFail (rows : TaskTable) (ids : List ℕ) (reason : Option String) (id : ℕ)
    (h : closed rows id = true) : closed (taskBulkFail ids reason rows) id = true := by
  unfold closed taskBulkFail at *
  cases hrow : rows id with
  | none => simp [hrow] at h
  | some =>
    by_cases hid : id ∈ ids
    · simp [hid]; rfl
    · simpa [hrow, hid] using h

theorem updateQuota_row {t : Task} {dbErr : Bool} {id : ℕ} {row' : Task} (h : t.updateQuota dbErr rows id = some row') :
    ∃ row, rows id = some row ∧ row'.status = row.status ∧ row'.progress = row.progress ∧
      row'.submitTime = row.submitTime := by
  unfold Task.updateQuota at h
  split at h
  · exact ⟨row', h, rfl, rfl, rfl⟩
  by_cases hid : id = t.id
  · subst hid
    rw [update_self] at h
    obtain ⟨row, hrow, rfl⟩ := map_eq_some_iff.1 h
    exact ⟨row, hrow, rfl, rfl, rfl⟩
  · rw [update_of_ne hid] at h
    exact ⟨row', h, rfl, rfl, rfl⟩

theorem closed_updateQuota (t : Task) (dbErr : Bool) (id : ℕ) :
    closed (t.updateQuota dbErr rows) id = closed rows id := by
  unfold closed Task.updateQuota
  split
  · rfl
  by_cases hid : id = t.id
  · subst hid
    rw [update_self]
    cases rows t.id <;> rfl
  · rw [update_of_ne hid]

theorem budget_bulkFail (ids : List ℕ) (reason : Option String) (id : ℕ) :
    (s.bulkFail ids reason).budget id ≤ s.budget id := by
  have hkeep := closed_taskBulkFail s.rows ids reason id
  unfold budget bulkFail
  cases hc : closed s.rows id with
  | false => cases closed (taskBulkFail ids reason s.rows) id <;> simp
  | true => simp [hkeep hc]

theorem budget_step (id : ℕ) (hI : SweepsOpen s) (hst : PollStep cfg ps s l s') (hc : FromOpen s l) :
    s'.budget id + (l.refunds id || l.settles id).toNat ≤ s.budget id := by
  cases hst with
  | insert _ _ _ id' _ _ _ _ _ _ _ _ _ hfresh ht =>
    -- a new row is open, as a row that is not there counts
    have hclosed : ∀ t, t.status = .notStart → closed (update s.rows id' (some t)) id = closed s.rows id := by
      intro t hs
      unfold closed
      by_cases hid : id = id'
      · subst hid
        simp [hfresh, hs, TaskStatus.isDone]
      · rw [update_of_ne hid]
    simp [budget, hclosed _ (submitTask_row ht).1, refunds, settles]
  | readTimedOut => exact le_rfl
  | read => exact le_rfl
  | sweep n now cas ht => exact (sweep_gated (hI n _ (by simp [ht])) rfl).budget_le n _ id
  | suno n => exact (suno_gated hc rfl).budget_le n _ id
  | video n => exact (video_gated hc rfl).budget_le n _ id
  | nullTasks | missingChannel => exact budget_bulkFail _ _ id
  | @bill e n t t' b st before later ho hb =>
    have hclosed : closed (if t'.quota ≠ t.quota then t'.updateQuota e.rowErr s.rows else s.rows) id =
        closed s.rows id := by
      split
      · exact closed_updateQuota t' e.rowErr id
      · rfl
    -- the call is made: it was owed once, and is owed no more
    have hcall : ((bill n t b).refunds id || (bill n t b).settles id) = decide (t.id = id) := by
      cases b <;> simp [refunds, settles]
    simp only [budget, hclosed, hcall, ho, List.countP_append, List.countP_cons, decide_eq_true_eq]
    by_cases hid : t.id = id
    · simp only [hid, decide_true, if_true, toNat_true]
      omega
    · simp [hid]

theorem countP_refunds_add_settles (id : ℕ) (ls : List PollEvent) :
    ls.countP (refunds id) + ls.countP (settles id) = ls.countP fun l => l.refunds id || l.settles id := by
  induction ls with
  | nil => rfl
  | cons l ls ih =>
    have hone : ¬ (l.refunds id = true ∧ l.settles id = true) := by
      cases l with
      | bill n t b => cases b <;> simp [refunds, settles]
      | _ => simp [refunds]
    cases hr : l.refunds id <;> cases hs : l.settles id <;> simp_all <;> omega

def Polling.start (rows : TaskTable) (accounts : ℕ → Store) : Polling :=
  { rows := rows, nodes := fun _ => {}, owed := [], accounts := accounts }

/-- **Billed at most once**, if no step moves a copy out of a terminal status. -/
theorem billed_at_most_once {accounts : ℕ → Store}
    (h : Run (within (PollStep cfg ps) FromOpen) (Polling.start rows accounts) ls s) (id : ℕ) :
    ls.countP (refunds id) + ls.countP (settles id) ≤ 1 := by
  rw [countP_refunds_add_settles]
  have hpay := h.countP_le_budget (fun s => s.budget id) (fun s l s' hI hst => sweepsOpen_step hI hst.1)
    (fun s l s' hI hst => budget_step id hI hst.1 hst.2) (fun n t ht => absurd ht List.not_mem_nil)
  have hstart : (start rows accounts).budget id ≤ 1 := by exact toNat_le _
  omega

def pollSetting : PollSetting := ⟨1440, ""⟩

def pendingTask : Task := { sampleTask with status := .inProgress, quota := 5, billingSource := some .wallet }

def oneTask (t : Task) : TaskTable := Function.update (fun _ => none) t.id (some t)

def calmBill : BillEnv := ⟨calmEnv, ⟨none, none, 1⟩, 0, false⟩

def sunoAnswer (status : TaskStatus) : SunoItem := { taskId := "up_1", status := status }

theorem pendingTask_read : ∀ t ∈ [pendingTask], oneTask pendingTask t.id = some t ∧ t.unfinished = true := by
  intro t ht
  obtain rfl := List.mem_singleton.1 ht
  exact ⟨rfl, rfl⟩

theorem billed_at_most_once_suno :
    ∃ ls s, Run (within (PollStep sampleCfg pollSetting) FromOpen)
        (Polling.start (oneTask pendingTask) fun _ => sampleStore) ls s ∧
      1 ≤ ls.countP (refunds 1) ∧
      ls.countP (refunds 1) + ls.countP (settles 1) ≤ 1 := by
  obtain ⟨ls, s, hrun, hone⟩ : ∃ ls s, Run (within (PollStep sampleCfg pollSetting) FromOpen)
      (start (oneTask pendingTask) fun _ => sampleStore) ls s ∧ 1 ≤ ls.countP (refunds 1) :=
    ⟨_, _, .cons ⟨.read 0 [pendingTask] pendingTask_read, trivial⟩ <|
      .cons ⟨.suno 0 (sunoAnswer .failure) {} rfl, fun h => nomatch h⟩ <|
      .cons ⟨.bill calmBill (show _ = [] ++ (_, _, _) :: [] from rfl) rfl, trivial⟩ <| .nil _, by decide⟩
  exact ⟨ls, s, hrun, hone, billed_at_most_once hrun 1⟩

/-- Both nodes have read the task. The first refunds it; the answer to the second lists it as failed, running and
failed again, which opens the row and refunds it once more. -/
theorem suno_refunded_twice :
    ∃ ls s, Run (PollStep sampleCfg pollSetting)
        (Polling.start (oneTask pendingTask) fun _ => sampleStore) ls s ∧
      ls.countP (refunds 1) = 2 ∧
      (s.accounts 1).walletLevel = sampleStore.walletLevel + 10 :=
  ⟨_, _, .cons (.read 0 [pendingTask] pendingTask_read) <| .cons (.read 1 [pendingTask] pendingTask_read) <|
    .cons (.suno 0 (sunoAnswer .failure) {} rfl) <|
    .cons (.bill calmBill (show _ = [] ++ (_, _, _) :: [] from rfl) rfl) <|
    .cons (.suno 1 (sunoAnswer .failure) {} rfl) <|
    .cons (.suno 1 (sunoAnswer .inProgress) {} rfl) <|
    .cons (.suno 1 (sunoAnswer .failure) {} rfl) <|
    .cons (.bill calmBill (show _ = [] ++ (_, _, _) :: [] from rfl) rfl) <| .nil _,
    by decide, by decide⟩

def Refundable (row : Task) : Prop := row.status ≠ .failure ∧ row.quota ≠ 0 ∧ taskRefundLegacyCutoff ≤ row.submitTime

/-- A bulk update fails no task with something to give back, and the copy of an update knows of quota and cutoff when
the row does. -/
def CoversRefund (s : Polling) : PollEvent → Prop
  | .nullTasks n platform =>
    ∀ id ∈ nullTaskIds platform (s.nodes n).tasks, ∀ row, s.rows id = some row → ¬ Refundable row
  | .missingChannel n platform channelId =>
    ∀ id ∈ failedIDs platform (s.nodes n).tasks channelId, ∀ row, s.rows id = some row → ¬ Refundable row
  | .sweep _ t => ∀ row, s.rows t.id = some row → Refundable row → t.quota ≠ 0 ∧ t.isLegacy = false
  | .suno _ t _ | .video _ t _ => ∀ row, s.rows t.id = some row → Refundable row → t.quota ≠ 0
  | _ => True

theorem Won.changed (hw : Won t rows o) (hrow : rows id = some row) (hrow' : o.rows id = some row')
    (hnew : rows id ≠ some row') : t.id = id ∧ row.status = t.status ∧ o.task = row' := by
  obtain ⟨r, hr, hs, hrows⟩ := hw
  by_cases hid : id = t.id
  · subst hid
    rw [hrows, update_self] at hrow'
    obtain rfl := some.inj (hr.symm.trans hrow)
    exact ⟨rfl, hs, some.inj hrow'⟩
  · rw [hrows, update_of_ne hid] at hrow'
    exact absurd hrow' hnew

theorem after_owes {b : Bill} (hid : o.task.id = id) (hb : o.bill = some b) :
    ∃ n' t, t.id = id ∧ (s.after n node o).owed = (n', t, b) :: s.owed :=
  ⟨n, o.task, hid, by simp [after, hb]⟩

theorem SunoItem.isFailure_of_status (h : (item.apply t).status = .failure) : item.isFailure t = true := by
  by_contra hf
  have hs : item.statusFor t = .failure := by simpa [apply, hf] using h
  simp [isFailure, hs] at hf

theorem refund_owed_step (hst : PollStep cfg ps s l s') (hc : CoversRefund s l)
    (hrow : s.rows id = some row) (hr : Refundable row)
    (hrow' : s'.rows id = some row') (hf : row'.status = .failure) :
    ∃ n t, t.id = id ∧ s'.owed = (n, t, .refund) :: s.owed := by
  have hnew : s.rows id ≠ some row' := by
    intro hsame
    obtain rfl := some.inj (hrow.symm.trans hsame)
    exact hr.1 hf
  cases hst with
  | insert _ _ _ id' _ _ _ _ _ _ _ _ _ hfresh =>
    have hne : id ≠ id' := by
      rintro rfl
      rw [hfresh] at hrow
      cases hrow
    dsimp only at hrow'
    rw [update_of_ne hne] at hrow'
    exact absurd hrow' hnew
  | readTimedOut | read => exact absurd hrow' hnew
  | nullTasks | missingChannel =>
    obtain ⟨r, hr', rfl | ⟨hmem, -⟩⟩ := taskBulkFail_row hrow'
    · exact absurd hr' hnew
    · exact absurd hr (hc id hmem row hrow)
  | sweep n now cas =>
    obtain ⟨htask, ⟨hkept, -⟩ | ⟨hwon, hb⟩⟩ :=  sweep_cases rfl
    · rw [after, hkept] at hrow'
      exact absurd hrow' hnew
    obtain ⟨rfl, -, -⟩ := hwon.changed hrow hrow' hnew
    obtain ⟨hq, hl⟩ := hc row hrow hr
    exact after_owes (by rw [htask]; rfl) (by rw [hb, hl]; simp [hq])
  | suno n item cas =>
    obtain ⟨-, ⟨hkept, -⟩ | ⟨hwon, htask, hb⟩⟩ := suno_cases rfl
    · rw [after, hkept] at hrow'
      exact absurd hrow' hnew
    obtain ⟨rfl, hs, heq⟩ := hwon.changed hrow hrow' hnew
    -- the row has failed by this item, which makes the guard of the refund true
    have hfail : item.isFailure _ = true := SunoItem.isFailure_of_status (by rw [← htask, heq, hf])
    refine after_owes (by rw [htask]; rfl) ?_
    rw [hb, hfail, ← hs]
    simp [hr.1, hc row hrow hr]
  | video n name upstreamID answer now cas =>
    obtain ⟨hid, -, ⟨hkept, -⟩ | ⟨hwon, info, data, -, happ, hb⟩⟩ := video_cases rfl
    · rw [after, hkept] at hrow'
      exact absurd hrow' hnew
    obtain ⟨rfl, hs, heq⟩ := hwon.changed hrow hrow' hnew
    -- a video row fails only by the status of the answer
    have hinfo : info.status = .failure := by rw [← (info.apply_some happ).2.2, heq, hf]
    refine after_owes hid ?_
    rw [hb, TaskInfo.bill, hinfo]
    simp [hc row hrow hr]
  | bill =>
    split at hrow'
    · obtain ⟨r, hr', hs, -⟩ := updateQuota_row hrow'
      obtain rfl := some.inj (hr'.symm.trans hrow)
      exact absurd (hs.symm.trans hf) hr.1
    · exact absurd hrow' hnew

def Polling.OwesRefund (s : Polling) (id : ℕ) : Prop := ∃ n t, t.id = id ∧ (n, t, .refund) ∈ s.owed

theorem mem_after_owed {c : ℕ × Task × Bill} (h : c ∈ s.owed) : c ∈ (s.after n node o).owed := List.mem_append_right _ h

theorem owesRefund_step (hst : PollStep cfg ps s l s') (h : s.OwesRefund id) :
    l.refunds id = true ∨ s'.OwesRefund id := by
  obtain ⟨n, t, hid, hmem⟩ := h
  cases hst with
  | insert | readTimedOut | read | nullTasks | missingChannel => exact .inr ⟨n, t, hid, hmem⟩
  | sweep | suno | video => exact .inr ⟨n, t, hid, mem_after_owed hmem⟩
  | bill e ho =>
    rw [ho] at hmem
    rcases List.mem_append.1 hmem with hmem | hmem
    · exact .inr ⟨n, t, hid, List.mem_append_left _ hmem⟩
    rcases List.mem_cons.1 hmem with heq | hmem
    · -- this is the call
      cases heq
      exact .inl (decide_eq_true hid)
    · exact .inr ⟨n, t, hid, List.mem_append_right _ hmem⟩

/-- **Failed with its refund.** A step that moves a paid task to `FAILURE` owes the refund, which is called unless it
is still owed at the end. -/
theorem failed_task_refunded {accounts : ℕ → Store} {a b : Polling} {ms as bs : List (Polling × PollEvent × Polling)}
    (h : Run (moves (within (PollStep cfg ps) CoversRefund)) (Polling.start rows accounts) ms s)
    (hms : ms = as ++ (a, l, b) :: bs) (hrow : a.rows id = some row) (hr : Refundable row)
    (hrow' : b.rows id = some row') (hf : row'.status = .failure) :
    (∃ n t, t.id = id ∧ b.owed = (n, t, .refund) :: a.owed) ∧
      ((∃ m ∈ bs, m.2.1.refunds id = true) ∨ s.OwesRefund id) := by
  obtain ⟨s1, s2, -, ⟨rfl, ⟨hst, hc⟩, rfl⟩, hafter⟩ := h.split hms
  obtain ⟨n, t, hid, howed⟩ := refund_owed_step hst hc hrow hr hrow' hf
  refine ⟨⟨n, t, hid, howed⟩, ?_⟩
  have hstart : Polling.OwesRefund b id := ⟨n, t, hid, howed ▸ List.mem_cons_self⟩
  exact hafter.kept_until (K := fun s => s.OwesRefund id) (fun s m s' hm => owesRefund_step hm.2.1.1) hstart

theorem failed_task_refunded_suno :
    ∃ a b ms row' s, Run (moves (within (PollStep sampleCfg pollSetting) CoversRefund))
        (Polling.start (oneTask pendingTask) fun _ => sampleStore) ms s ∧
      (a, .suno 0 pendingTask (sunoAnswer .failure), b) ∈ ms ∧
      a.rows 1 = some pendingTask ∧ b.rows 1 = some row' ∧ row'.status = .failure ∧
      (∃ n t, t.id = 1 ∧ b.owed = (n, t, .refund) :: a.owed) ∧
      (s.accounts 1).walletLevel = sampleStore.walletLevel + 5 := by
  obtain ⟨a, b, m1, m3, row', s, hrun, hrow, hr, hrow', hf, hwallet⟩ : ∃ a b m1 m3 row' s,
      Run (moves (within (PollStep sampleCfg pollSetting) CoversRefund))
        (start (oneTask pendingTask) fun _ => sampleStore)
        ([m1] ++ (a, .suno 0 pendingTask (sunoAnswer .failure), b) :: [m3]) s ∧
      a.rows 1 = some pendingTask ∧ Refundable pendingTask ∧ b.rows 1 = some row' ∧ row'.status = .failure ∧
      (s.accounts 1).walletLevel = sampleStore.walletLevel + 5 := by
    refine ⟨_, _, (_, _, _), (_, _, _), _, _, .cons ⟨rfl, ⟨.read 0 [pendingTask] pendingTask_read, trivial⟩, rfl⟩ <|
      .cons ⟨rfl, ⟨.suno 0 (sunoAnswer .failure) {} rfl, fun _ _ _ => ?_⟩, rfl⟩ <|
      .cons ⟨rfl, ⟨.bill calmBill (show _ = [] ++ (_, _, _) :: [] from rfl) rfl, trivial⟩, rfl⟩ <| .nil _,
      rfl, ⟨by decide, by decide, by decide⟩, rfl, rfl, by decide⟩
    exact (by decide : pendingTask.quota ≠ 0)
  refine ⟨a, b, _, row', s, hrun, List.mem_append_right _ List.mem_cons_self, hrow, hrow', hf, ?_, hwallet⟩
  exact (failed_task_refunded hrun rfl hrow hr hrow' hf).1

/-- The channel of a paid task is deleted: the next pass fails the task, and nobody refunds it. -/
theorem missing_channel_not_refunded :
    ∃ ls s s' row row', Run (PollStep sampleCfg pollSetting)
        (Polling.start (oneTask pendingTask) fun _ => sampleStore) ls s ∧
      PollStep sampleCfg pollSetting s (.missingChannel 0 .suno 1) s' ∧
      s.rows 1 = some row ∧ Refundable row ∧ s'.rows 1 = some row' ∧ row'.status = .failure ∧
      ¬ ∃ n t, t.id = 1 ∧ s'.owed = (n, t, .refund) :: s.owed := by
  refine ⟨_, _, _, pendingTask, _, .cons (.read 0 [pendingTask] pendingTask_read) (.nil _),
    .missingChannel 0 .suno 1 (by decide), rfl, ⟨by decide, by decide, by decide⟩, rfl, rfl, ?_⟩
  rintro ⟨n, t, -, howed⟩
  exact absurd howed (List.cons_ne_nil _ _).symm

/-- The queries look at the progress as well as at the status. -/
def Pollable (t : Task) : Prop := t.status.isDone = false → t.progress ≠ "100%"

structure PollInv (s : Polling) : Prop where
  rows : ∀ id row, s.rows id = some row → Pollable row
  copies : ∀ n, ∀ t ∈ (s.nodes n).tasks, t.platform = .suno → Pollable t

/-- A video that is not done is not reported at `100%`, and a Suno item takes no copy out of a terminal status. -/
def KeepsProgress (_ : Polling) : PollEvent → Prop
  | .suno _ t item => t.status.isDone = true → (item.apply t).status.isDone = true
  | .video _ _ answer => ∀ info, answer.taskInfo = some info → info.status.isDone = false → info.progress ≠ "100%"
  | _ => True

theorem mem_of_taskM {platform : TaskPlatform} {tasks : List Task} {upstreamID : String}
    (h : taskM platform tasks upstreamID = some t) : t ∈ tasks ∧ t.platform = platform := by
  have hmem := List.mem_of_getLast? h
  simp only [List.mem_filter, and_eq_true, decide_eq_true_eq] at hmem
  exact ⟨hmem.1, hmem.2.1.1⟩

theorem mem_putTask {u : Task} {tasks : List Task} (h : u ∈ putTask t tasks) : u = t ∨ u ∈ tasks := by
  obtain ⟨v, hv, rfl⟩ := List.mem_map.1 h
  split
  · exact .inl rfl
  · exact .inr hv

theorem SunoItem.apply_pollable (h : Pollable t)
    (hc : t.status.isDone = true → (item.apply t).status.isDone = true) : Pollable (item.apply t) := by
  intro hopen
  have ht : t.status.isDone = false := by
    by_contra hd
    rw [hc (by simpa using hd)] at hopen
    exact Bool.noConfusion hopen
  cases hf : item.isFailure t with
  | true => simp [apply, hf, TaskStatus.isDone] at hopen
  | false =>
    by_cases hsucc : item.status = .success
    · simp [apply, hf, statusFor, hsucc, TaskStatus.isDone] at hopen
    · simpa [apply, hf, hsucc] using h ht

theorem TaskInfo.apply_pollable (h : info.apply ps now t = some t')
    (hc : info.status.isDone = false → info.progress ≠ "100%") : Pollable t' := by
  intro hopen
  rw [(info.apply_some h).2.2] at hopen
  have hne := hc hopen
  unfold apply at h
  cases hs : info.status <;> rw [hs] at h <;> simp only [some.injEq, reduceCtorEq] at h
  case failure | success => rw [hs] at hopen; cases hopen
  all_goals
    subst h
    show info.progressOr _ ≠ _
    unfold progressOr
    split
    · exact hne
    · decide

theorem PollInv.setNode (hI : PollInv s) (hnode : ∀ u ∈ node.tasks, u.platform = .suno → Pollable u) :
    ∀ m, ∀ u ∈ (update s.nodes n node m).tasks, u.platform = .suno → Pollable u :=
  (forall_update_iff s.nodes fun _ nd => ∀ u ∈ nd.tasks, u.platform = .suno → Pollable u).2
    ⟨hnode, fun m _ => hI.copies m⟩

theorem PollInv.after (hI : PollInv s) (ho : o.rows = s.rows ∨ Won t s.rows o ∧ Pollable o.task)
    (hnode : ∀ u ∈ node.tasks, u.platform = .suno → Pollable u) : PollInv (s.after n node o) := by
  refine ⟨fun id row hrow => ?_, hI.setNode hnode⟩
  change o.rows id = some row at hrow
  rcases ho with hkept | ⟨⟨_, -, -, hrows⟩, hp⟩
  · rw [hkept] at hrow
    exact hI.rows id row hrow
  rw [hrows] at hrow
  by_cases hid : id = t.id
  · subst hid
    rw [update_self] at hrow
    exact some.inj hrow ▸ hp
  · rw [update_of_ne hid] at hrow
    exact hI.rows id row hrow

theorem taskBulkFail_pollable {ids : List ℕ} (h : ∀ id row, rows id = some row → Pollable row) :
    ∀ id row, taskBulkFail ids reason rows id = some row → Pollable row := by
  intro id row hrow
  obtain ⟨r, hr, rfl | ⟨-, hf⟩⟩ := taskBulkFail_row hrow
  · exact h id row hr
  intro hopen
  rw [hf] at hopen
  cases hopen

theorem pollInv_step (hI : PollInv s) (hst : PollStep cfg ps s l s') (hc : KeepsProgress s l) : PollInv s' := by
  cases hst with
  | insert _ _ _ id' _ _ _ _ _ _ _ _ _ hfresh ht =>
    refine ⟨(forall_update_iff s.rows fun _ r => ∀ row, r = some row → Pollable row).2
      ⟨fun row hrow _ => ?_, fun id _ => hI.rows id⟩, hI.copies⟩
    rw [← some.inj hrow, (submitTask_row ht).2]
    show "0%" ≠ "100%"
    decide
  | readTimedOut n => exact ⟨hI.rows, hI.setNode (hI.copies n)⟩
  | read n tasks hrows => exact ⟨hI.rows, hI.setNode fun t ht _ _ => (unfinished_open (hrows t ht).2).2⟩
  | nullTasks | missingChannel => exact ⟨taskBulkFail_pollable hI.rows, hI.copies⟩
  | @sweep n now cas t rest ht =>
    obtain ⟨htask, ho⟩ := sweep_cases rfl
    have hp : Pollable (sweepTimedOutTask ps now cas t s.rows).task := by
      rw [htask]
      intro hopen
      cases hopen
    exact hI.after (ho.imp And.left fun h => ⟨h.1, hp⟩) (hI.copies n)
  | @suno n item cas t ht =>
    obtain ⟨hmem, hplat⟩ := mem_of_taskM ht
    have hp := hI.copies n _ hmem hplat
    have hp' := SunoItem.apply_pollable hp hc
    obtain ⟨htask, ho⟩ := suno_cases rfl
    refine hI.after (t := t) (ho.imp And.left ?_) (fun u hu hsuno => ?_)
    · rintro ⟨hwon, heq, -⟩
      exact ⟨hwon, heq ▸ hp'⟩
    rcases mem_putTask hu with rfl | hu
    · rcases htask with h | h
      · rw [h]; exact hp
      · rw [h]; exact hp'
    · exact hI.copies n u hu hsuno
  | @video n name upstreamID answer now cas t ht =>
    obtain ⟨-, hplat⟩ := mem_of_taskM ht
    obtain ⟨-, hplat', ho⟩ := video_cases rfl
    refine hI.after (t := t) (ho.imp And.left ?_) (fun u hu hsuno => ?_)
    · rintro ⟨hwon, info, data, hinfo, happ, -⟩
      exact ⟨hwon, TaskInfo.apply_pollable happ (hc info hinfo)⟩
    rcases mem_putTask hu with rfl | hu
    · rw [hplat', hplat] at hsuno
      cases hsuno
    · exact hI.copies n u hu hsuno
  | bill =>
    refine ⟨fun id row hrow => ?_, hI.setNode fun u hu hsuno => ?_⟩
    · split at hrow
      · obtain ⟨r, hr, hs, hp, -⟩ := updateQuota_row hrow
        intro hopen
        rw [hp]
        exact hI.rows id r hr (hs ▸ hopen)
      · exact hI.rows id row hrow
    · obtain ⟨v, hv, rfl⟩ := List.mem_map.1 hu
      split at hsuno
      · rw [if_pos ‹_›]
        exact hI.copies _ v hv hsuno
      · rw [if_neg ‹_›]
        exact hI.copies _ v hv hsuno

/-- **Still polled.** From an empty table on, a task that has neither succeeded nor failed is
found by both queries. -/
theorem open_task_polled {accounts : ℕ → Store}
    (h : Run (within (PollStep cfg ps) KeepsProgress) (Polling.start (fun _ => none) accounts) ls s)
    (hrow : s.rows id = some row) (hs : row.status ≠ .success) (hf : row.status ≠ .failure) :
    row.unfinished = true ∧ ∀ cutoff, row.submitTime < cutoff → row.timedOut cutoff = true := by
  have hinv : PollInv s := h.inv (fun s l s' hI hst => pollInv_step hI hst.1 hst.2)
    ⟨fun _ _ hnone => (nomatch hnone), fun _ _ ht => absurd ht List.not_mem_nil⟩
  have hopen : row.status.isDone = false := by simp [TaskStatus.isDone, hs, hf]
  have hun : row.unfinished = true := by simp [Task.unfinished, hopen, hinv.rows id row hrow hopen]
  refine ⟨hun, fun cutoff hold => ?_⟩
  simp [Task.timedOut, hun, hold]

def newVideo : Task := initTask 1 "task_1" (.video "kling") 1 1 "up_1" "" 1 false 1771718400

def videoSession : BillingSession := newSession sampleInfo 5 .wallet 1000 false

def videoTask : Task := (submitTask sampleCfg calmEnv videoSession newVideo 5 sampleStore).1

def videoAnswer (progress : String) : VideoAnswer :=
  .result { status := .inProgress, progress := progress } .unrecognized ""

theorem videoTask_read : ∀ t ∈ [videoTask], oneTask videoTask t.id = some t ∧ t.unfinished = true := by
  intro t ht
  obtain rfl := List.mem_singleton.1 ht
  exact ⟨rfl, rfl⟩

theorem open_task_polled_video :
    ∃ ls s row, Run (within (PollStep sampleCfg pollSetting) KeepsProgress)
        (Polling.start (fun _ => none) fun _ => sampleStore) ls s ∧
      s.rows 1 = some row ∧ row.progress = "40%" ∧
      (row.unfinished = true ∧ ∀ cutoff, row.submitTime < cutoff → row.timedOut cutoff = true) := by
  obtain ⟨ls, s, row, hrun, hrow, hp, hs⟩ : ∃ ls s row, Run (within (PollStep sampleCfg pollSetting) KeepsProgress)
        (start (fun _ => none) fun _ => sampleStore) ls s ∧
      s.rows 1 = some row ∧ row.progress = "40%" ∧ row.status = .inProgress :=
    ⟨_, _, _,
      .cons ⟨.insert calmEnv videoSession 5 1 "task_1" (.video "kling") 1 1 "up_1" "" 1 false 1771718400 rfl rfl,
        trivial⟩ <|
      .cons ⟨.read 0 [videoTask] videoTask_read, trivial⟩ <|
      .cons ⟨.video 0 "kling" "up_1" (videoAnswer "40%") 0 {} rfl,
        fun info hinfo _ => by rw [← some.inj hinfo]; decide⟩ <| .nil _,
      rfl, rfl, rfl⟩
  exact ⟨ls, s, row, hrun, hrow, hp, open_task_polled hrun hrow (by rw [hs]; decide) (by rw [hs]; decide)⟩

/-- An upstream reports a running video at `100%`: neither query finds the task any more. -/
theorem running_video_stranded :
    ∃ ls s row, Run (PollStep sampleCfg pollSetting)
        (Polling.start (fun _ => none) fun _ => sampleStore) ls s ∧
      s.rows 1 = some row ∧ row.status ≠ .success ∧ row.status ≠ .failure ∧
      row.unfinished = false ∧ ∀ cutoff, row.timedOut cutoff = false :=
  ⟨_, _, _,
    .cons (.insert calmEnv videoSession 5 1 "task_1" (.video "kling") 1 1 "up_1" "" 1 false 1771718400 rfl rfl) <|
    .cons (.read 0 [videoTask] videoTask_read) <|
    .cons (.video 0 "kling" "up_1" (videoAnswer "100%") 0 {} rfl) <| .nil _,
    rfl, by decide, by decide, rfl, fun _ => rfl⟩

end NewApi
