import NewApi.Spec.Midjourney

/-!
# Refunds of Midjourney tasks

What a statement can do is said once (`SubmitStep`, `PassStep`), and from the side of one task once more (`TaskStep`).
A charged task is `MjSettling`, then `MjOpen`, and `MjFailed` after the one update that makes it fail, whose pass
makes the refund; a task without a charge is `MjFree` (`TaskFits`).

This needs passes that do not meet the gaps of the code (`MjCareful`): a copy taken while the task is being charged
has no token, bulk updates refund nothing, and an update from a status to itself, or from `FAILURE`, is won by several
passes.

* `mj_step`: what one statement does.
* `TaskView.step`: a task that the call is not refunding stays what it is, or fails now.
* `MjFits.step`, `MjFits.run`: all tasks, over one event and over whole runs.
-/

namespace NewApi

open Trace Function MjMem MjPhase List

structure MjTask.HasFailed (task : MjTask) : Prop where
  status : task.status = "FAILURE"
  progress : task.progress = "100%"

namespace MjSubmit

def charge (a : MjSubmit) : ℤ := (prepareMidjourneyTaskBilling a a.task).1.quota

def chargedToken (a : MjSubmit) : ℕ := if a.isPlayground then 0 else a.tokenId

def refund (a : MjSubmit) : List (MjAccount × ℤ) :=
  (.user a.userId, a.charge) :: if 0 < a.chargedToken then [(.token a.chargedToken, a.charge)] else []

section

variable (a : MjSubmit)
include a

theorem prepare_cases (task : MjTask) :
    prepareMidjourneyTaskBilling a task = ({ task with quota := 0, tokenId := 0, billingChannelId := 0 }, false) ∨
      0 ≤ a.price ∧ ∃ c, prepareMidjourneyTaskBilling a task =
        ({ task with quota := a.price, tokenId := 0, billingChannelId := c }, true) := by
  unfold prepareMidjourneyTaskBilling
  simp only
  split
  · exact .inl rfl
  rename_i hnot
  push Not at hnot
  exact .inr ⟨hnot.2.1, _, rfl⟩

theorem charge_nonneg : 0 ≤ a.charge := by
  unfold charge
  rcases a.prepare_cases a.task with h | ⟨hprice, c, h⟩ <;> rw [h]
  exact hprice

theorem adopt_fits : (a.blank.adopt a.now a.found).userId = a.userId ∧ ¬ (a.blank.adopt a.now a.found).HasFailed := by
  unfold MjTask.adopt
  split
  · exact ⟨rfl, fun h => absurd (show "" = "FAILURE" from h.1) (by decide)⟩
  split_ifs with hsuccess
  · exact ⟨rfl, fun h => absurd (hsuccess.symm.trans h.1) (by decide)⟩
  · exact ⟨rfl, fun h => absurd (show "0%" = "100%" from h.2) (by decide)⟩

theorem task_fits : a.task.userId = a.userId ∧ ¬ a.task.HasFailed := by
  unfold task
  split_ifs
  · exact ⟨rfl, fun h => absurd (show "" = "FAILURE" from h.1) (by decide)⟩
  · exact ⟨a.adopt_fits.1, fun h => absurd (show "SUCCESS" = "FAILURE" from h.1) (by decide)⟩
  · exact a.adopt_fits

end

end MjSubmit

def MjMem.refunds (id : ℕ) (m : MjMem) : List (MjAccount × ℤ) :=
  (m.moves.filter fun mv => mv.task = id ∧ 0 < mv.amount).map fun mv => (mv.account, mv.amount)

theorem MjMem.refunds_move (id task : ℕ) (account : MjAccount) (amount : ℤ) (m : MjMem) :
    (m.move task account amount).refunds id =
      m.refunds id ++ if task = id ∧ 0 < amount then [(account, amount)] else [] := by
  unfold refunds move
  by_cases h : task = id ∧ 0 < amount
  · simp [h]
  · rw [if_neg h]
    simp [h]

namespace MjPhase

def copies : MjPhase → List MjTask
  | .polled tasks => tasks
  | .scanning pass | .refundUser pass _ | .refundToken pass _ | .clearQuota pass _ => pass.copies
  | _ => []

def refunding : MjPhase → Option MjTask
  | .refundUser _ task | .refundToken _ task | .clearQuota _ task => some task
  | _ => none

def due : MjPhase → List (MjAccount × ℤ)
  | .refundUser _ task =>
    (.user task.userId, task.quota) :: if 0 < task.tokenId then [(.token task.tokenId, task.quota)] else []
  | .refundToken _ task => [(.token task.tokenId, task.quota)]
  | _ => []

def settling : MjPhase → Option MjTask
  | .inserted task | .userCharged task | .tokenCharged task => some task
  | _ => none

def taskId : MjPhase → Option ℕ
  | .inserted task | .userCharged task | .tokenCharged task => some task.id
  | .submitted id => some id
  | _ => none

end MjPhase

def MjMem.Uncharged (C : MjTask → Bool) (m : MjMem) : Prop := ∀ row ∈ m.rows, C row = true → row.quota = 0

/-- An answer that is applied to a copy: the copy has not failed, and what is taken as a failure says so. -/
def MjPass.CarefulItem (now : ℤ) (answer : MjAnswer) (pass : MjPass) : Prop :=
  ∀ task ∈ pass.copies.find? fun copy => copy.mjId = answer.mjId,
    checkMjTaskNeedUpdate task (answer.timeout now task) = true → task.status ≠ "FAILURE" ∧
        ((answer.timeout now task).fails = true → (answer.timeout now task).status = "FAILURE")

def MjMem.CarefulStmt (e : MjEnv) (p : MjPhase) (m : MjMem) : Prop :=
  match p, e with
  | .polled tasks, _ => m.Uncharged fun row => ((tasks.filter fun task => task.mjId = "").map (·.id)).contains row.id
  | .scanning pass, .next now => ∀ answer ∈ pass.answers.head?, pass.CarefulItem now answer
  | .scanning pass, .channelMissing c =>
    m.Uncharged fun row => ((pass.copies.filter fun copy => copy.channelId = c).map (·.mjId)).contains row.mjId
  | _, _ => True

def CarefulRead {ι : Type} (s : Shared ι MjPhase MjMem) : Prop :=
  ∀ j, ∀ task ∈ (s.phase j).settling, ∀ row ∈ s.mem.rows, row.id = task.id → row.progress = "100%"

def MjCareful {ι : Type} (ops : ι → MjOp) (s : Shared ι MjPhase MjMem) : SharedEvent ι MjEnv Empty → Prop
  | .env _ => True
  | .call i e => s.mem.CarefulStmt e (s.phase i) ∧ (ops i = .poll → s.phase i = .idle → CarefulRead s)

section Decidable

instance (C : MjTask → Bool) (m : MjMem) : Decidable (m.Uncharged C) := by
  unfold MjMem.Uncharged
  infer_instance

instance (now : ℤ) (answer : MjAnswer) (pass : MjPass) : Decidable (pass.CarefulItem now answer) := by
  unfold MjPass.CarefulItem
  infer_instance

instance (e : MjEnv) (p : MjPhase) (m : MjMem) : Decidable (m.CarefulStmt e p) := by
  unfold MjMem.CarefulStmt
  split <;> infer_instance

variable {ι : Type} [Fintype ι]

instance (s : Shared ι MjPhase MjMem) : Decidable (CarefulRead s) := by
  unfold CarefulRead
  infer_instance

instance (ops : ι → MjOp) (s : Shared ι MjPhase MjMem) (ev : SharedEvent ι MjEnv Empty) :
    Decidable (MjCareful ops s ev) := by
  unfold MjCareful
  split <;> infer_instance

end Decidable

structure Applies (K : Prop) (copies : List MjTask) (task : MjTask) (answer : MjAnswer) : Prop where
  mem : task ∈ copies
  isOpen : K → task.status ≠ "FAILURE"
  failure : K → answer.fails = true → answer.status = "FAILURE"

def MjMem.Loses (task : MjTask) (answer : MjAnswer) (m : MjMem) : Prop :=
  m.rows.any (MjMem.matching task.status (task.updated answer)) = true ∧ answer.fails = true ∧
    (task.updated answer).quota ≠ 0

inductive PassStep (K : Prop) (m : MjMem) : MjPhase → MjPhase → MjMem → Prop
  | read {p'} : (∀ copy ∈ p'.copies, copy ∈ m.unfinished) → p'.refunding = none → p'.taskId = none →
      PassStep K m .idle p' m
  | bulk {p p' C reason} : (K → m.Uncharged C) → p'.copies ⊆ p.copies →
      p.refunding = none → p'.refunding = none → p'.taskId = none → PassStep K m p p' (m.bulkFail C reason)
  | quiet {p p'} : p'.copies ⊆ p.copies → p.refunding = none → p'.refunding = none → p'.taskId = none →
      PassStep K m p p' m
  | applied {pass pass' : MjPass} {task answer} : pass'.copies = pass.copies →
      Applies K pass.copies task answer → ¬ m.Loses task answer →
      PassStep K m (.scanning pass) (.scanning (pass'.put (task.updated answer)))
        (m.updateWithStatus task.status (task.updated answer)).2
  | failed {pass pass' : MjPass} {task answer} : pass'.copies = pass.copies →
      Applies K pass.copies task answer → m.Loses task answer →
      PassStep K m (.scanning pass) (.refundUser (pass'.put (task.updated answer)) (task.updated answer))
        (m.updateWithStatus task.status (task.updated answer)).2
  | refund {p p' task account amount} : p.refunding = some task →
      p'.refunding = some task → p.due = (account, amount) :: p'.due → p'.copies = p.copies → p'.taskId = none →
      PassStep K m p p' (m.move task.id account amount)
  | clear {pass task} :
      PassStep K m (.clearQuota pass task) (.scanning (pass.put { task with quota := 0 }))
        (m.updateBillingState { task with quota := 0 })

inductive SubmitStep (a : MjSubmit) (m : MjMem) : MjPhase → MjPhase → MjMem → Prop
  | insert {task p'} : task.id = m.nextId → task.userId = a.userId → task.quota = a.charge →
      ¬ task.HasFailed →
      (p' = .inserted task ∨ a.charge = 0 ∧ p' = .submitted m.nextId) →
      SubmitStep a m .idle p' { m with rows := m.rows ++ [task], nextId := m.nextId + 1 }
  | user {task} :
      SubmitStep a m (.inserted task) (.userCharged task) (m.move task.id (.user task.userId) (-task.quota))
  | playground {task} : a.chargedToken = 0 →
      SubmitStep a m (.userCharged task) (.tokenCharged { task with tokenId := 0 }) m
  | token {task} : a.chargedToken = a.tokenId →
      SubmitStep a m (.userCharged task) (.tokenCharged { task with tokenId := a.tokenId })
        (m.move task.id (.token a.tokenId) (-task.quota))
  | billing {task} : SubmitStep a m (.tokenCharged task) (.submitted task.id) (m.updateBillingState task)

section Step

variable {K : Prop} {op : MjOp} {e : MjEnv} {m m' : MjMem} {p p' : MjPhase}

theorem item_step {pass pass' : MjPass} {now : ℤ} {answer : MjAnswer} (hcopies : pass'.copies = pass.copies)
    (hcareful : K → pass.CarefulItem now answer) (h : pass'.item now answer m = (p', m')) :
    PassStep K m (.scanning pass) p' m' := by
  have hsub : pass'.copies ⊆ pass.copies := by
    rw [hcopies]
    exact List.Subset.refl _
  unfold MjPass.item at h
  rw [hcopies] at h
  split at h
  · cases h
    exact .quiet hsub rfl rfl rfl
  rename_i task hfind
  simp only at h
  split at h
  · cases h
    exact .quiet hsub rfl rfl rfl
  rename_i hupdate
  have hneeds : checkMjTaskNeedUpdate task (answer.timeout now task) = true := by simpa using hupdate
  have happlies : Applies K pass.copies task (answer.timeout now task) :=
    ⟨mem_of_find?_eq_some hfind, fun hK => (hcareful hK task hfind hneeds).1,
      fun hK => (hcareful hK task hfind hneeds).2⟩
  split at h <;> cases h
  · exact .failed hcopies happlies ‹_›
  · exact .applied hcopies happlies ‹_›

theorem channel_step {pass : MjPass} (hcareful : K → m.CarefulStmt e (.scanning pass))
    (h : pass.channel e m = some (p', m')) : PassStep K m (.scanning pass) p' m' := by
  unfold MjPass.channel at h
  split at h
  · cases h
  · cases h
    exact .quiet (nil_subset _) rfl rfl rfl
  all_goals
    split at h
    · cases h
      first
        | exact .bulk hcareful (List.Subset.refl _) rfl rfl rfl
        | exact .quiet (List.Subset.refl _) rfl rfl rfl
    · cases h

theorem insert_step {a : MjSubmit} (h : (MjOp.submit a).stmt e .idle m = some (p', m')) :
    SubmitStep a m .idle p' m' := by
  cases h
  obtain ⟨huser, hopen⟩ := a.task_fits
  refine .insert rfl ?_ rfl ?_ ?_
  · rcases a.prepare_cases a.task with h | ⟨-, c, h⟩ <;> rw [h] <;> exact huser
  · intro hfailed
    apply hopen
    rcases a.prepare_cases a.task with h | ⟨-, c, h⟩ <;> rw [h] at hfailed <;>
      exact ⟨hfailed.status, hfailed.progress⟩
  rcases a.prepare_cases a.task with h | ⟨-, c, h⟩
  · refine .inr ⟨?_, ?_⟩
    · unfold MjSubmit.charge
      rw [h]
    · rw [h]
      rfl
  left
  rw [h]
  rfl

theorem mj_step (hop : p.taskId ≠ none → ∃ a, op = .submit a) (hcareful : K → m.CarefulStmt e p)
    (h : op.stmt e p m = some (p', m')) :
    (∃ a, op = .submit a ∧ SubmitStep a m p p' m') ∨ PassStep K m p p' m' ∧ (p = .idle → op = .poll) := by
  cases p with
  | idle =>
    cases op with
    | submit a => exact .inl ⟨a, rfl, insert_step h⟩
    | poll =>
      cases h
      refine .inr ⟨?_, fun _ => rfl⟩
      split
      · exact .quiet (List.Subset.refl _) rfl rfl rfl
      · exact .read (fun _ => id) rfl rfl
  | inserted =>
    obtain ⟨a, rfl⟩ := hop nofun
    cases h
    exact .inl ⟨a, rfl, .user⟩
  | userCharged =>
    obtain ⟨a, rfl⟩ := hop nofun
    simp only [MjOp.stmt] at h
    split at h <;> cases h
    · exact .inl ⟨a, rfl, .playground (if_pos ‹_›)⟩
    · exact .inl ⟨a, rfl, .token (if_neg ‹_›)⟩
  | tokenCharged =>
    obtain ⟨a, rfl⟩ := hop nofun
    cases h
    exact .inl ⟨a, rfl, .billing⟩
  | submitted | finished => cases op <;> cases h
  | polled tasks =>
    refine .inr ⟨?_, nofun⟩
    cases h
    have hsub : (MjPass.start tasks).copies ⊆ tasks := by
      intro copy hcopy
      exact mem_of_mem_filter (mem_reverse.1 hcopy)
    split
    · exact .quiet hsub rfl rfl rfl
    · exact .bulk hcareful hsub rfl rfl rfl
  | scanning pass =>
    refine .inr ⟨?_, nofun⟩
    simp only [MjOp.stmt] at h
    split at h
    · rename_i answer rest hanswers
      split at h
      · obtain h := Option.some.inj h
        have hitem : K → pass.CarefulItem _ answer := fun hK => hcareful hK answer (by rw [hanswers]; rfl)
        exact item_step (by rfl) hitem h
      · cases h
    split at h
    · cases h
      exact .quiet (nil_subset _) rfl rfl rfl
    · exact channel_step hcareful h
  | refundUser pass task =>
    refine .inr ⟨?_, nofun⟩
    cases h
    split_ifs with htoken
    · exact .refund rfl rfl (by simp [due, htoken]) rfl rfl
    · exact .refund rfl rfl (by simp [due, htoken]) rfl rfl
  | refundToken =>
    cases h
    exact .inr ⟨.refund rfl rfl rfl rfl rfl, nofun⟩
  | clearQuota =>
    cases h
    exact .inr ⟨.clear, nofun⟩

end Step

section Updates

variable {m : MjMem} {C : MjTask → Bool} {f : MjTask → MjTask} {task row : MjTask} {answer : MjAnswer}

theorem MjMem.mem_update (h : row ∈ (m.update C f).rows) :
    row ∈ m.rows ∨ ∃ old ∈ m.rows, C old = true ∧ row = f old := by
  obtain ⟨old, hold, rfl⟩ := mem_map.1 h
  split
  · exact .inr ⟨old, hold, ‹_›, rfl⟩
  · exact .inl hold

theorem MjMem.update_ids (h : ∀ row, C row = true → (f row).id = row.id) :
    (m.update C f).rows.map (·.id) = m.rows.map (·.id) := by
  unfold update
  rw [map_map]
  apply map_congr_left
  intro row _
  simp only [comp]
  split
  · exact h row ‹_›
  · rfl

theorem MjMem.matching_iff {fromStatus : String} :
    matching fromStatus task row = true ↔ row.id = task.id ∧ row.status = fromStatus := by
  simp [matching]

theorem MjPass.mem_put {pass : MjPass} {copy : MjTask} (h : copy ∈ (pass.put task).copies) :
    copy = task ∨ copy ∈ pass.copies ∧ copy.id ≠ task.id := by
  obtain ⟨old, hold, rfl⟩ := mem_map.1 h
  split
  · exact .inl rfl
  · exact .inr ⟨hold, ‹_›⟩

theorem MjTask.updated_fits (task : MjTask) (answer : MjAnswer) :
    (task.updated answer).id = task.id ∧ (task.updated answer).userId = task.userId ∧
      (task.updated answer).quota = task.quota ∧ (task.updated answer).tokenId = task.tokenId ∧
      (task.updated answer).status = answer.status := by
  unfold updated
  split <;> exact ⟨rfl, rfl, rfl, rfl, rfl⟩

@[simp] theorem MjTask.updated_id : (task.updated answer).id = task.id := (task.updated_fits answer).1

theorem MjTask.updated_failed (h : (task.updated answer).HasFailed) : answer.fails = true := by
  by_contra hnot
  unfold updated at h
  rw [if_neg hnot] at h
  apply hnot
  unfold MjAnswer.fails
  simp [show answer.status = "FAILURE" from h.status, show answer.progress = "100%" from h.progress]

theorem MjTask.updated_progress (h : answer.fails = true) : (task.updated answer).progress = "100%" := by
  unfold updated
  rw [if_pos h]

end Updates

def MjPhase.refundId (p : MjPhase) : Option ℕ := p.refunding.map (·.id)

structure FailStep (K : Prop) (id : ℕ) (m : MjMem) (p p' : MjPhase) (m' : MjMem) (task : MjTask)
    (answer : MjAnswer) : Prop where
  id_eq : task.id = id
  applies : Applies K p.copies task answer
  loses : m.Loses task answer
  old : ∃ old ∈ m.rows, old.id = id ∧ old.status = task.status
  rows : ∀ row ∈ m'.rows, row.id = id → row = task.updated answer
  copies : ∀ copy ∈ p'.copies, copy.id = id → copy ∈ p.copies ∨ copy = task.updated answer
  refunds : m'.refunds id = m.refunds id
  refunding : p'.refunding = some (task.updated answer)
  due : p'.due = (.user task.userId, task.quota) ::
    if 0 < task.tokenId then [(.token task.tokenId, task.quota)] else []

inductive TaskStep (K : Prop) (id : ℕ) (m : MjMem) (p p' : MjPhase) (m' : MjMem) : Prop
  | apart : (∀ row ∈ m'.rows, row.id = id → row ∈ m.rows) →
      (∀ copy ∈ p'.copies, copy.id = id → copy ∈ p.copies) → m'.refunds id = m.refunds id → p.refundId ≠ some id →
      p'.refundId ≠ some id → TaskStep K id m p p' m'
  | read : p = .idle → m' = m → (∀ copy ∈ p'.copies, copy ∈ m.rows ∧ copy.progress ≠ "100%") → p'.refundId = none →
      TaskStep K id m p p' m'
  | bulk : (∀ row ∈ m'.rows, row.id = id → row ∈ m.rows ∨ ∃ old ∈ m.rows, old.id = id ∧ (K → old.quota = 0) ∧
        row.quota = old.quota ∧ row.HasFailed) →
      (∀ copy ∈ p'.copies, copy ∈ p.copies) → m'.refunds id = m.refunds id → p.refundId = none →
      p'.refundId = none → TaskStep K id m p p' m'
  | applied (task : MjTask) (answer : MjAnswer) : task.id = id → Applies K p.copies task answer →
      ¬ m.Loses task answer →
      (∀ row ∈ m'.rows, row.id = id → row ∈ m.rows ∨ row = task.updated answer ∧
        ∃ old ∈ m.rows, old.id = id ∧ old.status = task.status) →
      (∀ copy ∈ p'.copies, copy.id = id → copy ∈ p.copies ∨ copy = task.updated answer) →
      m'.refunds id = m.refunds id → p.refundId = none → p'.refundId = none → TaskStep K id m p p' m'
  | failed (task : MjTask) (answer : MjAnswer) : FailStep K id m p p' m' task answer → TaskStep K id m p p' m'
  | refund (account : MjAccount) (amount : ℤ) : m'.rows = m.rows → p'.copies = p.copies →
      m'.refunds id = m.refunds id ++ (if 0 < amount then [(account, amount)] else []) → p.refundId = some id →
      p'.refunding = p.refunding → p.due = (account, amount) :: p'.due → TaskStep K id m p p' m'
  | clear (task : MjTask) : p.refunding = some task → task.id = id → p.due = [] →
      (∀ row ∈ m'.rows, row.id = id → ∃ old ∈ m.rows, old.id = id ∧ old.status = row.status ∧
        old.progress = row.progress) →
      (∀ copy ∈ p'.copies, copy.id = id → copy = { task with quota := 0 }) → m'.refunds id = m.refunds id →
      p'.refundId = none → TaskStep K id m p p' m'

section Task

variable {K : Prop} {m m' : MjMem} {p p' : MjPhase} {id : ℕ}

theorem MjPhase.refundId_none (h : p.refunding = none) : p.refundId = none := by
  unfold refundId
  rw [h]
  rfl

theorem MjPhase.refundId_some {task : MjTask} (h : p.refunding = some task) : p.refundId = some task.id := by
  unfold refundId
  rw [h]
  rfl

theorem MjPhase.refundId_ne_of_none (h : p.refundId = none) : p.refundId ≠ some id := by
  rw [h]
  exact nofun

theorem MjPhase.refundId_ne {task : MjTask} (h : p.refunding = some task) (hid : task.id ≠ id) :
    p.refundId ≠ some id := by
  rw [refundId_some h]
  exact fun heq => hid (Option.some.inj heq)

theorem MjPhase.noCopy {Q : MjTask → Prop} (h : p.copies = []) : ∀ copy ∈ p.copies, Q copy := by
  rw [h]
  exact forall_mem_nil Q

theorem put_copies {pass pass' : MjPass} {task : MjTask} (hsame : pass'.copies = pass.copies) {copy : MjTask}
    (h : copy ∈ (pass'.put task).copies) : copy ∈ pass.copies ∨ copy = task := by
  rcases MjPass.mem_put h with rfl | ⟨hold, -⟩
  · exact .inr rfl
  · exact .inl (hsame ▸ hold)

theorem put_copies_other {pass pass' : MjPass} {task : MjTask} (hsame : pass'.copies = pass.copies)
    (hid : task.id ≠ id) {copy : MjTask} (h : copy ∈ (pass'.put task).copies) (hcopy : copy.id = id) :
    copy ∈ pass.copies := by
  rcases put_copies hsame h with hold | rfl
  · exact hold
  · exact absurd hcopy hid

theorem updateWithStatus_other {fromStatus : String} {task row : MjTask} (hid : task.id ≠ id)
    (h : row ∈ (m.updateWithStatus fromStatus task).2.rows) (hrow : row.id = id) : row ∈ m.rows := by
  rcases mem_update h with hold | ⟨old, -, -, rfl⟩
  · exact hold
  · exact absurd hrow hid

theorem updateBillingState_other {task row : MjTask} (hid : task.id ≠ id)
    (h : row ∈ (m.updateBillingState task).rows) (hrow : row.id = id) : row ∈ m.rows := by
  rcases mem_update h with hold | ⟨old, -, hC, rfl⟩
  · exact hold
  · have holdId : old.id = task.id := by simpa using hC
    exact absurd (holdId.symm.trans hrow) hid

theorem PassStep.task (hnodup : (m.rows.map (·.id)).Nodup) (h : PassStep K m p p' m') (id : ℕ) :
    TaskStep K id m p p' m' := by
  cases h with
  | read hcopies hnone =>
    refine .read rfl rfl ?_ (refundId_none hnone)
    intro copy hcopy
    obtain ⟨hmem, hprogress⟩ := mem_filter.1 (hcopies copy hcopy)
    exact ⟨hmem, by simpa using hprogress⟩
  | @bulk _ _ C reason huncharged hcopies hnone hnone' =>
    refine .bulk ?_ hcopies rfl (refundId_none hnone) (refundId_none hnone')
    intro row hrow hid
    rcases mem_update hrow with hold | ⟨old, hold, hC, rfl⟩
    · exact .inl hold
    · exact .inr ⟨old, hold, hid, fun hK => huncharged hK old hold hC, rfl, ⟨rfl, rfl⟩⟩
  | quiet hcopies hnone hnone' =>
    refine .apart (fun _ hrow _ => hrow) (fun _ hcopy _ => hcopies hcopy) rfl ?_ ?_
    · exact refundId_ne_of_none (refundId_none hnone)
    · exact refundId_ne_of_none (refundId_none hnone')
  | @applied pass pass' task answer hsame happlies hkeeps =>
    by_cases hid : task.id = id
    · refine .applied task answer hid happlies hkeeps ?_ (fun copy hcopy _ => put_copies hsame hcopy) rfl rfl rfl
      intro row hrow _
      rcases mem_update hrow with hold | ⟨old, hold, hC, rfl⟩
      · exact .inl hold
      · obtain ⟨holdId, hstatus⟩ := matching_iff.1 hC
        exact .inr ⟨rfl, old, hold, by simpa [hid] using holdId, hstatus⟩
    · have hid' : (task.updated answer).id ≠ id := by simpa using hid
      exact .apart (fun _ => updateWithStatus_other hid') (fun _ => put_copies_other hsame hid') rfl nofun nofun
  | @failed pass pass' task answer hsame happlies hloses =>
    obtain ⟨-, huser, hquota, htoken, -⟩ := task.updated_fits answer
    by_cases hid : task.id = id
    · obtain ⟨old, hold, hmatch⟩ := any_eq_true.1 hloses.1
      obtain ⟨holdId, hstatus⟩ := matching_iff.1 hmatch
      have holdId' : old.id = id := by simpa [hid] using holdId
      refine .failed task answer ⟨hid, happlies, hloses, ⟨old, hold, holdId', hstatus⟩, ?_,
        fun copy hcopy _ => put_copies hsame hcopy, rfl, rfl, ?_⟩
      · -- there is one row with this id, and it is the one that matched
        intro row hrow hrowId
        obtain ⟨row0, hrow0, rfl⟩ := mem_map.1 hrow
        split_ifs with hnot
        · rfl
        rw [if_neg hnot] at hrowId
        obtain rfl := inj_on_of_nodup_map hnodup hrow0 hold (hrowId.trans holdId'.symm)
        exact absurd hmatch hnot
      · simp [due, huser, hquota, htoken]
    · have hid' : (task.updated answer).id ≠ id := by simpa using hid
      exact .apart (fun _ => updateWithStatus_other hid') (fun _ => put_copies_other hsame hid') rfl nofun
        (refundId_ne rfl hid')
  | @refund _ _ task account amount hp hp' hdue hcopies =>
    by_cases hid : task.id = id
    · refine .refund account amount rfl hcopies ?_ ?_ (hp'.trans hp.symm) hdue
      · rw [refunds_move]
        simp [hid]
      · rw [refundId_some hp, hid]
    refine .apart (fun _ hrow _ => hrow) (fun _ hcopy _ => hcopies ▸ hcopy) ?_ (refundId_ne hp hid)
      (refundId_ne hp' hid)
    rw [refunds_move]
    simp [hid]
  | @clear pass task =>
    by_cases hid : task.id = id
    · refine .clear task rfl hid rfl ?_ ?_ rfl rfl
      · intro row hrow hrowId
        rcases mem_update hrow with hold | ⟨old, hold, -, rfl⟩
        · exact ⟨row, hold, hrowId, rfl, rfl⟩
        · exact ⟨old, hold, hrowId, rfl, rfl⟩
      intro copy hcopy hcopyId
      rcases MjPass.mem_put hcopy with rfl | ⟨-, hne⟩
      · rfl
      · exact absurd (hcopyId.trans hid.symm) hne
    · have hid' : ({ task with quota := 0 } : MjTask).id ≠ id := hid
      exact .apart (fun _ => updateBillingState_other hid') (fun _ => put_copies_other rfl hid') rfl
        (refundId_ne rfl hid) nofun

theorem SubmitStep.apart {a : MjSubmit} (h : SubmitStep a m p p' m') (hid : p'.taskId ≠ some id) :
    TaskStep K id m p p' m' := by
  cases h with
  | @insert task p' htask huser hquota hopen hp' =>
    have hne : m.nextId ≠ id := by
      rintro rfl
      rcases hp' with rfl | ⟨-, rfl⟩
      · exact hid (congrArg some htask)
      · exact hid rfl
    have hnone : p'.copies = [] ∧ p'.refundId = none := by rcases hp' with rfl | ⟨-, rfl⟩ <;> exact ⟨rfl, rfl⟩
    refine .apart ?_ (noCopy hnone.1) rfl nofun (refundId_ne_of_none hnone.2)
    intro row hrow hrowId
    rcases mem_append.1 hrow with hold | hnew
    · exact hold
    · obtain rfl := mem_singleton.1 hnew
      exact absurd (htask.symm.trans hrowId) hne
  | user | token =>
    refine .apart (fun _ hrow _ => hrow) (noCopy rfl) ?_ nofun nofun
    rw [refunds_move, if_neg (fun h => hid (congrArg some h.1)), append_nil]
  | playground => exact .apart (fun _ hrow _ => hrow) (noCopy rfl) rfl nofun nofun
  | @billing task =>
    have hne : task.id ≠ id := fun heq => hid (congrArg some heq)
    exact .apart (fun _ => updateBillingState_other hne) (noCopy rfl) rfl nofun nofun

end Task

structure ChargedRow (a : MjSubmit) (row : MjTask) : Prop where
  user : row.userId = a.userId
  quota : row.quota = a.charge
  isOpen : ¬ row.HasFailed

structure CopyFits (a : MjSubmit) (copy : MjTask) : Prop where
  user : copy.userId = a.userId
  charge : copy.status ≠ "FAILURE" → copy.quota = a.charge ∧ copy.tokenId = a.chargedToken

theorem CopyFits.updated {a : MjSubmit} {task : MjTask} {answer : MjAnswer} (h : CopyFits a task)
    (hopen : task.status ≠ "FAILURE") : CopyFits a (task.updated answer) := by
  obtain ⟨-, huser, hquota, htoken, -⟩ := task.updated_fits answer
  obtain ⟨hcharge, hcharged⟩ := h.charge hopen
  exact ⟨huser.trans h.user, fun _ => ⟨hquota.trans hcharge, htoken.trans hcharged⟩⟩

section States

variable {ι : Type} {K : Prop} {a : MjSubmit} {id : ℕ} {P Q : MjTask → Prop}

structure TaskView (id : ℕ) (P Q : MjTask → Prop) (s : Shared ι MjPhase MjMem) : Prop where
  rows : ∀ row ∈ s.mem.rows, row.id = id → P row
  copies : ∀ i, ∀ copy ∈ (s.phase i).copies, copy.id = id → Q copy

/-- No refund of the task is made or due. -/
structure Unpaid (id : ℕ) (P Q : MjTask → Prop) (s : Shared ι MjPhase MjMem) : Prop where
  view : TaskView id P Q s
  refunds : s.mem.refunds id = []
  none : ∀ i, (s.phase i).refundId ≠ some id

inductive Paying (a : MjSubmit) (id : ℕ) (s : Shared ι MjPhase MjMem) : Prop
  | due (i : ι) : (s.phase i).refundId = some id → s.mem.refunds id ++ (s.phase i).due = a.refund →
      (∀ task ∈ (s.phase i).refunding, task.userId = a.userId ∧ task.status = "FAILURE") →
      (∀ j, j ≠ i → (s.phase j).refundId ≠ some id) → Paying a id s
  | paid : s.mem.refunds id = a.refund → (∀ i, (s.phase i).refundId ≠ some id) → Paying a id s

abbrev MjUnused (id : ℕ) (s : Shared ι MjPhase MjMem) : Prop := Unpaid id (fun _ => False) (fun _ => False) s

abbrev MjFree (id : ℕ) (s : Shared ι MjPhase MjMem) : Prop :=
  Unpaid id (fun row => row.quota = 0) (fun copy => copy.quota = 0) s

abbrev MjSettling (a : MjSubmit) (id : ℕ) (s : Shared ι MjPhase MjMem) : Prop :=
  Unpaid id (ChargedRow a) (fun _ => False) s

abbrev MjOpen (a : MjSubmit) (id : ℕ) (s : Shared ι MjPhase MjMem) : Prop :=
  Unpaid id (fun row => ChargedRow a row ∧ row.tokenId = a.chargedToken) (CopyFits a) s

structure MjFailed (a : MjSubmit) (id : ℕ) (s : Shared ι MjPhase MjMem) : Prop where
  view : TaskView id MjTask.HasFailed (CopyFits a) s
  paying : Paying a id s

structure MjKept (K : Prop) (P Q : MjTask → Prop) : Prop where
  bulk : ∀ old row, P old → (K → old.quota = 0) → row.quota = old.quota → row.HasFailed → P row
  row : ∀ task answer old, Q task → (K → task.status ≠ "FAILURE") → P old → old.status = task.status →
    ¬ (answer.fails = true ∧ (task.updated answer).quota ≠ 0) → P (task.updated answer)
  copy : ∀ task answer, Q task → (K → task.status ≠ "FAILURE") → Q (task.updated answer)

variable [DecidableEq ι] {s : Shared ι MjPhase MjMem} {i : ι} {p' : MjPhase} {m' : MjMem}

theorem TaskView.update (h : TaskView id P Q s) {P' : MjTask → Prop} (hrows : ∀ row ∈ m'.rows, row.id = id → P' row)
    (hcopies : ∀ copy ∈ p'.copies, copy.id = id → Q copy) :
    TaskView id P' Q ⟨m', update s.phase i p'⟩ :=
  ⟨hrows, (forall_update_iff s.phase fun _ p => ∀ copy ∈ p.copies, copy.id = id → Q copy).2
    ⟨hcopies, fun j _ => h.copies j⟩⟩

theorem Unpaid.update (h : Unpaid id P Q s) {P' Q' : MjTask → Prop}
    (hview : TaskView id P' Q' ⟨m', Function.update s.phase i p'⟩) (hrefunds : m'.refunds id = s.mem.refunds id)
    (hp' : p'.refundId ≠ some id) : Unpaid id P' Q' ⟨m', Function.update s.phase i p'⟩ :=
  ⟨hview, hrefunds.trans h.refunds,
    (forall_update_iff s.phase fun _ p => p.refundId ≠ some id).2 ⟨hp', fun j _ => h.none j⟩⟩

/-- **A task that the call is not refunding.** -/
theorem TaskView.step (hkept : MjKept K P Q) (h : TaskView id P Q s) (hnone : (s.phase i).refundId ≠ some id)
    (ht : TaskStep K id s.mem (s.phase i) p' m')
    (hread : ∀ copy ∈ p'.copies, s.phase i = .idle → copy ∈ s.mem.rows → copy.id = id → copy.progress ≠ "100%" →
      P copy → Q copy) :
    (TaskView id P Q ⟨m', Function.update s.phase i p'⟩ ∧ m'.refunds id = s.mem.refunds id ∧ p'.refundId ≠ some id) ∨
      ∃ task answer, FailStep K id s.mem (s.phase i) p' m' task answer := by
  cases ht with
  | apart hrows hcopies hrefunds _ hp' =>
    refine .inl ⟨h.update ?_ ?_, hrefunds, hp'⟩
    · exact fun row hrow hid => h.rows row (hrows row hrow hid) hid
    · exact fun copy hcopy hid => h.copies i copy (hcopies copy hcopy hid) hid
  | read hidle hmem hcopies hp' =>
    subst hmem
    refine .inl ⟨h.update h.rows ?_, rfl, refundId_ne_of_none hp'⟩
    intro copy hcopy hid
    obtain ⟨hrow, hunfinished⟩ := hcopies copy hcopy
    exact hread copy hcopy hidle hrow hid hunfinished (h.rows copy hrow hid)
  | bulk hrows hcopies hrefunds _ hp' =>
    refine .inl ⟨h.update ?_ ?_, hrefunds, refundId_ne_of_none hp'⟩
    · intro row hrow hid
      rcases hrows row hrow hid with hold | ⟨old, hold, holdId, hzero, hquota, hfailed⟩
      · exact h.rows row hold hid
      · exact hkept.bulk old row (h.rows old hold holdId) hzero hquota hfailed
    · exact fun copy hcopy hid => h.copies i copy (hcopies copy hcopy) hid
  | applied task answer hid happlies hkeeps hrows hcopies hrefunds _ hp' =>
    have hcopy := h.copies i task happlies.mem hid
    refine .inl ⟨h.update ?_ ?_, hrefunds, refundId_ne_of_none hp'⟩
    · intro row hrow hrowId
      rcases hrows row hrow hrowId with hold | ⟨rfl, old, hold, holdId, hstatus⟩
      · exact h.rows row hold hrowId
      -- the row matched, so an answer that is a failure would be refunded
      have hmatch : MjMem.matching task.status (task.updated answer) old = true :=
        matching_iff.2 ⟨by rw [MjTask.updated_id, hid, holdId], hstatus⟩
      exact hkept.row task answer old hcopy happlies.isOpen (h.rows old hold holdId) hstatus fun hfails =>
        hkeeps ⟨any_eq_true.2 ⟨old, hold, hmatch⟩, hfails⟩
    · intro copy hmem hcopyId
      rcases hcopies copy hmem hcopyId with hold | rfl
      · exact h.copies i copy hold hcopyId
      · exact hkept.copy task answer hcopy happlies.isOpen
  | failed task answer hfail => exact .inr ⟨task, answer, hfail⟩
  | refund _ _ _ _ _ hp => exact absurd hp hnone
  | clear task hp hid => exact absurd ((refundId_some hp).trans (congrArg some hid)) hnone

theorem Unpaid.step (hkept : MjKept K P Q) (h : Unpaid id P Q s) (ht : TaskStep K id s.mem (s.phase i) p' m')
    (hread : ∀ copy ∈ p'.copies, s.phase i = .idle → copy ∈ s.mem.rows → copy.id = id → copy.progress ≠ "100%" →
      P copy → Q copy) :
    Unpaid id P Q ⟨m', Function.update s.phase i p'⟩ ∨
      ∃ task answer, Q task ∧ FailStep K id s.mem (s.phase i) p' m' task answer := by
  rcases h.view.step hkept (h.none i) ht hread with ⟨hview, hrefunds, hp'⟩ | ⟨task, answer, hfail⟩
  · exact .inl (h.update hview hrefunds hp')
  · exact .inr ⟨task, answer, h.view.copies i task hfail.applies.mem hfail.id_eq, hfail⟩

theorem MjUnused.step (h : MjUnused id s) (ht : TaskStep K id s.mem (s.phase i) p' m') :
    MjUnused id ⟨m', Function.update s.phase i p'⟩ := by
  have hkept : MjKept K (fun _ => False) (fun _ => False) :=
    ⟨fun _ _ => False.elim, fun _ _ _ => False.elim, fun _ _ => False.elim⟩
  exact (Unpaid.step hkept h ht fun _ _ _ _ _ _ => False.elim).resolve_right fun ⟨_, _, hnone, _⟩ => hnone

theorem MjFree.step (h : MjFree id s) (ht : TaskStep K id s.mem (s.phase i) p' m') :
    MjFree id ⟨m', Function.update s.phase i p'⟩ := by
  have hquota : ∀ (task : MjTask) answer, task.quota = 0 → (task.updated answer).quota = 0 :=
    fun task answer hzero => (task.updated_fits answer).2.2.1.trans hzero
  have hkept : MjKept K (fun row => row.quota = 0) (fun copy => copy.quota = 0) :=
    ⟨fun _ _ hzero _ hsame _ => hsame.trans hzero, fun task answer _ hzero _ _ _ _ => hquota task answer hzero,
      fun task answer hzero _ => hquota task answer hzero⟩
  exact (Unpaid.step hkept h ht fun _ _ _ _ _ _ hzero => hzero).resolve_right fun ⟨task, answer, hzero, hfail⟩ =>
    hfail.loses.2.2 (hquota task answer hzero)

theorem MjSettling.step (h : MjSettling a id s) (hK : K) (hcharge : a.charge ≠ 0)
    (ht : TaskStep K id s.mem (s.phase i) p' m')
    (hread : ∀ copy ∈ p'.copies, s.phase i = .idle → copy ∈ s.mem.rows → copy.id = id → copy.progress = "100%") :
    MjSettling a id ⟨m', Function.update s.phase i p'⟩ := by
  have hkept : MjKept K (ChargedRow a) (fun _ => False) :=
    ⟨fun _ _ hold hzero => absurd (hold.quota.symm.trans (hzero hK)) hcharge, fun _ _ _ => False.elim,
      fun _ _ => False.elim⟩
  have hread' : ∀ copy ∈ p'.copies, s.phase i = .idle → copy ∈ s.mem.rows → copy.id = id → copy.progress ≠ "100%" →
      ChargedRow a copy → False :=
    fun copy hcopy hidle hrow hid hnot _ => hnot (hread copy hcopy hidle hrow hid)
  exact (Unpaid.step hkept h ht hread').resolve_right fun ⟨_, _, hnone, _⟩ => hnone

theorem MjOpen.fail (h : MjOpen a id s) (hK : K) {task : MjTask} {answer : MjAnswer} (hcopy : CopyFits a task)
    (hfail : FailStep K id s.mem (s.phase i) p' m' task answer) :
    MjFailed a id ⟨m', update s.phase i p'⟩ := by
  obtain ⟨-, huser, -, -, hstatus⟩ := task.updated_fits answer
  have hopen := hfail.applies.isOpen hK
  obtain ⟨hcharged, hcharged'⟩ := hcopy.charge hopen
  have hfails := hfail.loses.2.1
  have hfailure : (task.updated answer).status = "FAILURE" := hstatus.trans (hfail.applies.failure hK hfails)
  refine ⟨h.view.update ?_ ?_, .due i ?_ ?_ ?_ ?_⟩
  · intro row hrow hrowId
    rw [hfail.rows row hrow hrowId]
    exact ⟨hfailure, MjTask.updated_progress hfails⟩
  · intro copy hmem hcopyId
    rcases hfail.copies copy hmem hcopyId with hold | rfl
    · exact h.view.copies i copy hold hcopyId
    · exact hcopy.updated hopen
  · simp only [update_self]
    rw [refundId_some hfail.refunding, MjTask.updated_id, hfail.id_eq]
  · simp only [update_self]
    rw [hfail.refunds, h.refunds, nil_append, hfail.due, hcopy.user, hcharged, hcharged']
    rfl
  · simp only [update_self, hfail.refunding]
    intro task' htask'
    cases htask'
    exact ⟨huser.trans hcopy.user, hfailure⟩
  intro j hj
  simp only [update_of_ne hj]
  exact h.none j

theorem MjOpen.step (h : MjOpen a id s) (hK : K) (hcharge : a.charge ≠ 0) (ht : TaskStep K id s.mem (s.phase i) p' m') :
    MjOpen a id ⟨m', Function.update s.phase i p'⟩ ∨ MjFailed a id ⟨m', Function.update s.phase i p'⟩ := by
  have hkept : MjKept K (fun row => ChargedRow a row ∧ row.tokenId = a.chargedToken) (CopyFits a) := by
    refine ⟨?_, ?_, fun task answer hcopy hopen => hcopy.updated (hopen hK)⟩
    · exact fun old _ hold hzero => absurd (hold.1.quota.symm.trans (hzero hK)) hcharge
    intro task answer old hcopy hopen' _ _ hkeeps
    have hopen := hopen' hK
    obtain ⟨-, -, hquota, htoken, -⟩ := task.updated_fits answer
    obtain ⟨hcharged, hcharged'⟩ := hcopy.charge hopen
    refine ⟨⟨(hcopy.updated hopen).user, hquota.trans hcharged, fun hfailed => hkeeps ?_⟩, htoken.trans hcharged'⟩
    refine ⟨MjTask.updated_failed hfailed, ?_⟩
    rw [hquota, hcharged]
    exact hcharge
  have hread : ∀ copy : MjTask, ChargedRow a copy ∧ copy.tokenId = a.chargedToken → CopyFits a copy :=
    fun copy hrow => ⟨hrow.1.user, fun _ => ⟨hrow.1.quota, hrow.2⟩⟩
  exact (Unpaid.step hkept h ht fun copy _ _ _ _ _ => hread copy).imp_right fun ⟨_, _, hcopy, hfail⟩ =>
    h.fail hK hcopy hfail

theorem MjSubmit.refund_pos {x : MjAccount × ℤ} (hcharge : a.charge ≠ 0) (h : x ∈ a.refund) : 0 < x.2 := by
  have hpos : 0 < a.charge := lt_of_le_of_ne a.charge_nonneg (Ne.symm hcharge)
  rcases mem_cons.1 h with rfl | h
  · exact hpos
  split at h
  · obtain rfl := mem_singleton.1 h
    exact hpos
  · cases h

theorem Paying.update (h : Paying a id s) (hrefunds : m'.refunds id = s.mem.refunds id)
    (hp : (s.phase i).refundId ≠ some id) (hp' : p'.refundId ≠ some id) :
    Paying a id ⟨m', update s.phase i p'⟩ := by
  cases h with
  | due k hk hdue htask hothers =>
    have hki : k ≠ i := by
      rintro rfl
      exact hp hk
    refine .due k ?_ ?_ ?_ ?_
    · simpa only [update_of_ne hki] using hk
    · simpa only [update_of_ne hki, hrefunds] using hdue
    · simpa only [update_of_ne hki] using htask
    · exact (forall_update_iff s.phase fun j p => j ≠ k → p.refundId ≠ some id).2 ⟨fun _ => hp', fun j _ => hothers j⟩
  | paid hpaid hnone =>
    exact .paid (hrefunds.trans hpaid) ((forall_update_iff s.phase fun _ p => p.refundId ≠ some id).2
      ⟨hp', fun j _ => hnone j⟩)

theorem Paying.refund {account : MjAccount} {amount : ℤ} (h : Paying a id s) (hcharge : a.charge ≠ 0)
    (hrefunds : m'.refunds id = s.mem.refunds id ++ if 0 < amount then [(account, amount)] else [])
    (hp : (s.phase i).refundId = some id) (hp' : p'.refunding = (s.phase i).refunding)
    (hdue : (s.phase i).due = (account, amount) :: p'.due) : Paying a id ⟨m', Function.update s.phase i p'⟩ := by
  cases h with
  | due k hk hrest htask hothers =>
    obtain rfl : i = k := by
      by_contra hik
      exact hothers i hik hp
    rw [hdue] at hrest
    have hpos : 0 < amount := MjSubmit.refund_pos (x := (account, amount)) hcharge (by rw [← hrest]; simp)
    refine .due i ?_ ?_ ?_ ?_
    · simp only [update_self, refundId, hp']
      exact hp
    · simp only [update_self]
      rw [hrefunds, if_pos hpos, append_assoc]
      exact hrest
    · simpa only [update_self, hp'] using htask
    · intro j hj
      simpa only [update_of_ne hj] using hothers j hj
  | paid _ hnone => exact absurd hp (hnone i)

theorem Paying.clear {task : MjTask} (h : Paying a id s) (hp : (s.phase i).refunding = some task)
    (hid : task.id = id) (hdue : (s.phase i).due = []) (hrefunds : m'.refunds id = s.mem.refunds id)
    (hp' : p'.refundId = none) :
    (task.userId = a.userId ∧ task.status = "FAILURE") ∧ Paying a id ⟨m', Function.update s.phase i p'⟩ := by
  have hpi : (s.phase i).refundId = some id := (refundId_some hp).trans (congrArg some hid)
  cases h with
  | due k hk hrest htask hothers =>
    obtain rfl : i = k := by
      by_contra hik
      exact hothers i hik hpi
    rw [hdue, append_nil] at hrest
    refine ⟨htask task hp, .paid (hrefunds.trans hrest) ?_⟩
    exact (forall_update_iff s.phase fun _ p => p.refundId ≠ some id).2 ⟨refundId_ne_of_none hp', hothers⟩
  | paid _ hnone => exact absurd hpi (hnone i)

theorem MjFailed.step (h : MjFailed a id s) (hK : K) (hcharge : a.charge ≠ 0)
    (ht : TaskStep K id s.mem (s.phase i) p' m') :
    MjFailed a id ⟨m', Function.update s.phase i p'⟩ := by
  -- no copy that is applied has the status of the row
  have hnever : ∀ task : MjTask, task.status ≠ "FAILURE" → ∀ old ∈ s.mem.rows, old.id = id → old.status ≠ task.status :=
    fun task hopen old hold hid hstatus => hopen (hstatus.symm.trans (h.view.rows old hold hid).status)
  by_cases hp : (s.phase i).refundId = some id
  · cases ht with
    | apart _ _ _ hnot => exact absurd hp hnot
    | read hidle =>
      rw [hidle] at hp
      cases hp
    | bulk _ _ _ hnone | applied _ _ _ _ _ _ _ _ hnone => exact absurd hp (refundId_ne_of_none hnone)
    | failed task answer hfail =>
      obtain ⟨old, hold, hid, hstatus⟩ := hfail.old
      exact absurd hstatus (hnever task (hfail.applies.isOpen hK) old hold hid)
    | refund account amount hrows hcopies hrefunds _ hp' hdue =>
      refine ⟨h.view.update ?_ ?_, h.paying.refund hcharge hrefunds hp hp' hdue⟩
      · rw [hrows]
        exact h.view.rows
      · rw [hcopies]
        exact h.view.copies i
    | clear task htask hid hdue hrows hcopies hrefunds hp' =>
      obtain ⟨⟨huser, hstatus⟩, hpaying⟩ := h.paying.clear htask hid hdue hrefunds hp'
      refine ⟨h.view.update ?_ ?_, hpaying⟩
      · intro row hrow hrowId
        obtain ⟨old, hold, holdId, hsame, hsame'⟩ := hrows row hrow hrowId
        obtain ⟨holdStatus, holdProgress⟩ := h.view.rows old hold holdId
        exact ⟨hsame.symm.trans holdStatus, hsame'.symm.trans holdProgress⟩
      intro copy hcopy hcopyId
      rw [hcopies copy hcopy hcopyId]
      exact ⟨huser, fun hnot => absurd hstatus hnot⟩
  · have hkept : MjKept K MjTask.HasFailed (CopyFits a) := by
      refine ⟨fun _ _ _ _ _ hfailed => hfailed, ?_, fun _ _ hcopy hopen => hcopy.updated (hopen hK)⟩
      exact fun task _ old _ hopen hold hstatus => absurd (hstatus.symm.trans hold.status) (hopen hK)
    rcases h.view.step hkept hp ht (fun _ _ _ _ _ hnot hrow => absurd hrow.2 hnot) with
      ⟨hview, hrefunds, hp'⟩ | ⟨task, answer, hfail⟩
    · exact ⟨hview, h.paying.update hrefunds hp hp'⟩
    · obtain ⟨old, hold, hid, hstatus⟩ := hfail.old
      exact absurd hstatus (hnever task (hfail.applies.isOpen hK) old hold hid)

end States

inductive IdStep (m : MjMem) (p p' : MjPhase) (m' : MjMem) : Prop
  | keeps : p'.taskId = none ∨ p'.taskId = p.taskId → m'.rows.map (·.id) = m.rows.map (·.id) →
      m'.nextId = m.nextId → IdStep m p p' m'
  | gives : p'.taskId = some m.nextId → m'.rows.map (·.id) = m.rows.map (·.id) ++ [m.nextId] →
      m'.nextId = m.nextId + 1 → IdStep m p p' m'

section Ids

variable {K : Prop} {m m' : MjMem} {p p' : MjPhase}

theorem updateBillingState_ids (task : MjTask) : (m.updateBillingState task).rows.map (·.id) = m.rows.map (·.id) :=
  update_ids fun _ _ => rfl

theorem updateWithStatus_ids (fromStatus : String) (task : MjTask) :
    (m.updateWithStatus fromStatus task).2.rows.map (·.id) = m.rows.map (·.id) :=
  update_ids fun _ hmatch => (matching_iff.1 hmatch).1.symm

theorem PassStep.noTask (h : PassStep K m p p' m') : p'.taskId = none := by
  cases h with
  | read _ _ hnone | bulk _ _ _ _ hnone | quiet _ _ _ hnone | refund _ _ _ _ hnone => exact hnone
  | applied | failed | clear => rfl

theorem PassStep.ids (h : PassStep K m p p' m') : IdStep m p p' m' := by
  have hnone := h.noTask
  cases h with
  | read | quiet | refund => exact .keeps (.inl hnone) rfl rfl
  | bulk => exact .keeps (.inl hnone) (update_ids fun _ _ => rfl) rfl
  | applied | failed => exact .keeps (.inl hnone) (updateWithStatus_ids ..) rfl
  | clear => exact .keeps (.inl hnone) (updateBillingState_ids _) rfl

theorem SubmitStep.noCopies {a : MjSubmit} (h : SubmitStep a m p p' m') : p'.copies = [] := by
  cases h with
  | insert _ _ _ _ hp' => rcases hp' with rfl | ⟨-, rfl⟩ <;> rfl
  | user | playground | token | billing => rfl

theorem SubmitStep.ids {a : MjSubmit} (h : SubmitStep a m p p' m') : IdStep m p p' m' := by
  cases h with
  | @insert task p' hid _ _ _ hp' =>
    refine .gives ?_ ?_ rfl
    · rcases hp' with rfl | ⟨-, rfl⟩
      · exact congrArg some hid
      · rfl
    · simp [map_append, hid]
  | user | playground | token => exact .keeps (.inr rfl) rfl rfl
  | billing => exact .keeps (.inr rfl) (updateBillingState_ids _) rfl

end Ids

section Fits

variable {ι : Type} {p : MjPhase}

structure MjIds (s : Shared ι MjPhase MjMem) : Prop where
  nodup : (s.mem.rows.map (·.id)).Nodup
  lt : ∀ id ∈ s.mem.rows.map (·.id), id < s.mem.nextId
  given : ∀ j, ∀ id ∈ (s.phase j).taskId, id < s.mem.nextId
  distinct : s.Once fun _ p => p.taskId

structure Charging (K : Prop) (a : MjSubmit) (task : MjTask) (s : Shared ι MjPhase MjMem) : Prop where
  quota : task.quota = a.charge
  free : a.charge = 0 → MjFree task.id s
  settling : K → a.charge ≠ 0 → MjSettling a task.id s

def TaskFits (K : Prop) (a : MjSubmit) (s : Shared ι MjPhase MjMem) : MjPhase → Prop
  | .inserted task | .userCharged task => Charging K a task s
  | .tokenCharged task => task.tokenId = a.chargedToken ∧ Charging K a task s
  | .submitted id => (a.charge = 0 → MjFree id s) ∧ (K → a.charge ≠ 0 → MjOpen a id s ∨ MjFailed a id s)
  | _ => True

structure MjFits (K : Prop) (ops : ι → MjOp) (s : Shared ι MjPhase MjMem) : Prop where
  ids : MjIds s
  unused : ∀ id, s.mem.nextId ≤ id → MjUnused id s
  submits : ∀ j, (s.phase j).taskId ≠ none → ∃ a, ops j = .submit a
  tasks : ∀ j a, ops j = .submit a → TaskFits K a s (s.phase j)

theorem TaskFits.of_noTask {K : Prop} {a : MjSubmit} {s : Shared ι MjPhase MjMem}
    (h : p.taskId = none) : TaskFits K a s p := by
  cases p with
  | inserted | userCharged | tokenCharged | submitted => cases h
  | _ => trivial

variable [DecidableEq ι] {K : Prop} {ops : ι → MjOp} {s s' : Shared ι MjPhase MjMem} {i : ι} {e : MjEnv}
  {p' : MjPhase} {m' : MjMem} {a : MjSubmit} {ev : SharedEvent ι MjEnv Empty}

theorem MjIds.step (h : MjIds s) (hids : IdStep s.mem (s.phase i) p' m') : MjIds ⟨m', update s.phase i p'⟩ := by
  cases hids with
  | keeps hp' hrows hnext =>
    have hsub : ∀ id, p'.taskId = some id → (s.phase i).taskId = some id := by
      intro id hid
      rcases hp' with hnone | hsame
      · rw [hnone] at hid
        cases hid
      · exact hsame.symm.trans hid
    refine ⟨?_, ?_, ?_, h.distinct.update fun id hid => .inl (hsub id hid)⟩
    · rw [hrows]
      exact h.nodup
    · rw [hrows, hnext]
      exact h.lt
    · rw [hnext]
      exact (forall_update_iff s.phase fun _ p => ∀ id ∈ p.taskId, id < s.mem.nextId).2
        ⟨fun id hid => h.given i id (hsub id hid), fun j _ => h.given j⟩
  | gives hp' hrows hnext =>
    have hid : ∀ id, p'.taskId = some id → id = s.mem.nextId := fun id hid => Option.some.inj (hid.symm.trans hp')
    refine ⟨?_, ?_, ?_, ?_⟩
    · rw [hrows]
      refine h.nodup.append (nodup_singleton _) ?_
      intro id hid hnew
      obtain rfl := mem_singleton.1 hnew
      exact lt_irrefl _ (h.lt _ hid)
    · rw [hrows, hnext]
      intro id hid
      rcases mem_append.1 hid with hold | hnew
      · exact Nat.lt_succ_of_lt (h.lt id hold)
      · obtain rfl := mem_singleton.1 hnew
        exact Nat.lt_succ_self _
    · rw [hnext]
      refine (forall_update_iff s.phase fun _ p => ∀ id ∈ p.taskId, id < s.mem.nextId + 1).2 ⟨?_, ?_⟩
      · exact fun id hnew => hid id hnew ▸ Nat.lt_succ_self _
      · exact fun j _ id hid => Nat.lt_succ_of_lt (h.given j id hid)
    -- the new id is not the one of another submission
    · refine h.distinct.update fun id hnew => .inr fun j _ hj => ?_
      rw [hid id hnew] at hj
      exact lt_irrefl _ (h.given j _ hj)

omit [DecidableEq ι] in
theorem Unpaid.mono {id : ℕ} {P P' Q Q' : MjTask → Prop} (h : Unpaid id P Q s) (hP : ∀ row, P row → P' row)
    (hQ : ∀ copy, Q copy → Q' copy) : Unpaid id P' Q' s :=
  ⟨⟨fun row hrow hid => hP row (h.view.rows row hrow hid),
    fun i copy hcopy hid => hQ copy (h.view.copies i copy hcopy hid)⟩, h.refunds, h.none⟩

theorem charge_apart {m : MjMem} {task : MjTask} {account : MjAccount} (id : ℕ)
    (hquota : task.quota = a.charge) (hcopies : p'.copies = []) (hp : p.refundId = none)
    (hp' : p'.refundId = none) :
    TaskStep K id m p p' (m.move task.id account (-task.quota)) := by
  refine .apart (fun _ hrow _ => hrow) (noCopy hcopies) ?_ ?_ ?_
  · have hnonneg := a.charge_nonneg
    rw [refunds_move, if_neg (by omega), append_nil]
  · rw [hp]
    exact nofun
  · rw [hp']
    exact nofun

theorem Charging.step {task : MjTask} (h : Charging K a task s) (ht : TaskStep K task.id s.mem (s.phase i) p' m')
    (hread : K → ∀ copy ∈ p'.copies, s.phase i = .idle → copy ∈ s.mem.rows → copy.id = task.id →
      copy.progress = "100%") :
    Charging K a task ⟨m', update s.phase i p'⟩ :=
  ⟨h.quota, fun hzero => (h.free hzero).step ht,
    fun hK hcharge => (h.settling hK hcharge).step hK hcharge ht (hread hK)⟩

omit [DecidableEq ι] in
theorem Charging.withToken {task : MjTask} {tokenId : ℕ} (h : Charging K a task s) :
    Charging K a { task with tokenId := tokenId } s :=
  ⟨h.quota, h.free, h.settling⟩

theorem MjUnused.insert {task : MjTask} (h : MjUnused s.mem.nextId s) (hid : task.id = s.mem.nextId)
    (huser : task.userId = a.userId) (hquota : task.quota = a.charge)
    (hopen : ¬ task.HasFailed) (hcopies : p'.copies = []) (hp' : p'.refundId = none) :
    Charging K a task
      ⟨{ s.mem with rows := s.mem.rows ++ [task], nextId := s.mem.nextId + 1 }, update s.phase i p'⟩ := by
  have hrow : ∀ row ∈ s.mem.rows ++ [task], row.id = s.mem.nextId → row = task := by
    intro row hrow hrowId
    rcases mem_append.1 hrow with hold | hnew
    · exact (h.view.rows row hold hrowId).elim
    · exact mem_singleton.1 hnew
  have hnew : Unpaid s.mem.nextId (fun row => row = task) (fun _ => False)
      ⟨{ s.mem with rows := s.mem.rows ++ [task], nextId := s.mem.nextId + 1 }, update s.phase i p'⟩ :=
    h.update (h.view.update hrow (noCopy hcopies)) rfl (refundId_ne_of_none hp')
  refine ⟨hquota, fun hzero => ?_, fun _ _ => ?_⟩ <;> rw [hid]
  · exact hnew.mono (fun _ heq => heq ▸ hquota.trans hzero) fun _ => False.elim
  · exact hnew.mono (fun _ heq => heq ▸ ⟨huser, hquota, hopen⟩) fun _ => False.elim

theorem Charging.bill {task : MjTask} (h : Charging K a task s) (htoken : task.tokenId = a.chargedToken) :
    TaskFits K a ⟨s.mem.updateBillingState task, update s.phase i (.submitted task.id)⟩ (.submitted task.id) := by
  have hrow : ∀ row ∈ (s.mem.updateBillingState task).rows, row.id = task.id →
      ∃ old ∈ s.mem.rows, old.id = task.id ∧ row = { old with
        quota := task.quota, tokenId := task.tokenId, billingChannelId := task.billingChannelId } := by
    intro row hrow hrowId
    obtain ⟨old, hold, rfl⟩ := mem_map.1 hrow
    split_ifs with hC
    · exact ⟨old, hold, by simpa using hC, rfl⟩
    rw [if_neg hC] at hrowId
    exact absurd (by simpa using hrowId) hC
  refine ⟨fun hzero => ?_, fun hK hcharge => .inl ?_⟩
  · have hfree := h.free hzero
    refine hfree.update (hfree.view.update ?_ (noCopy rfl)) rfl nofun
    intro row hmem hrowId
    obtain ⟨old, -, -, rfl⟩ := hrow row hmem hrowId
    exact h.quota.trans hzero
  have hsettling := h.settling hK hcharge
  refine Unpaid.mono (hsettling.update (hsettling.view.update ?_ (noCopy rfl)) rfl nofun) (fun _ => id)
    fun _ => False.elim
  intro row hmem hrowId
  obtain ⟨old, hold, holdId, rfl⟩ := hrow row hmem hrowId
  obtain ⟨huser, -, hopen⟩ := hsettling.view.rows old hold holdId
  exact ⟨⟨huser, h.quota, fun hfailed => hopen ⟨hfailed.status, hfailed.progress⟩⟩, htoken⟩

theorem SubmitStep.own (h : SubmitStep a s.mem (s.phase i) p' m') (hunused : MjUnused s.mem.nextId s)
    (hfits : TaskFits K a s (s.phase i)) : TaskFits K a ⟨m', update s.phase i p'⟩ p' := by
  generalize hp : s.phase i = p at h hfits
  cases h with
  | insert hid huser hquota hopen hp' =>
    rcases hp' with rfl | ⟨hzero, rfl⟩
    · exact hunused.insert hid huser hquota hopen rfl rfl
    · refine ⟨fun _ => ?_, fun _ hcharge => absurd hzero hcharge⟩
      exact hid ▸ (hunused.insert hid huser hquota hopen rfl rfl : Charging K a _ _).free hzero
  | user =>
    refine Charging.step hfits ?_ fun _ => noCopy rfl
    exact charge_apart _ hfits.quota rfl (by rw [hp]; rfl) rfl
  | playground hnone =>
    refine ⟨hnone.symm, Charging.withToken (Charging.step hfits ?_ fun _ => noCopy rfl)⟩
    exact .apart (fun _ hrow _ => hrow) (noCopy rfl) rfl (by rw [hp]; exact nofun) nofun
  | token htoken =>
    refine ⟨htoken.symm, Charging.withToken (Charging.step hfits ?_ fun _ => noCopy rfl)⟩
    exact charge_apart _ hfits.quota rfl (by rw [hp]; rfl) rfl
  | billing => exact hfits.2.bill hfits.1

theorem TaskFits.other (h : TaskFits K a s p) (ht : ∀ id, p.taskId = some id → TaskStep K id s.mem (s.phase i) p' m')
    (hread : K → ∀ task ∈ p.settling, ∀ copy ∈ p'.copies, s.phase i = .idle → copy ∈ s.mem.rows →
      copy.id = task.id → copy.progress = "100%") : TaskFits K a ⟨m', update s.phase i p'⟩ p := by
  cases p with
  | inserted task | userCharged task => exact Charging.step h (ht _ rfl) fun hK => hread hK task rfl
  | tokenCharged task => exact ⟨h.1, h.2.step (ht _ rfl) fun hK => hread hK task rfl⟩
  | submitted id =>
    refine ⟨fun hzero => (h.1 hzero).step (ht id rfl), fun hK hcharge => ?_⟩
    rcases h.2 hK hcharge with hopen | hfailed
    · exact hopen.step hK hcharge (ht id rfl)
    · exact .inr (hfailed.step hK hcharge (ht id rfl))
  | _ => trivial

theorem MjFits.step (h : MjFits K ops s) (hcareful : K → MjCareful ops s (.call i e))
    (hst : (ops i).stmt e (s.phase i) s.mem = some (p', m')) : MjFits K ops ⟨m', update s.phase i p'⟩ := by
  have hstep := mj_step (h.submits i) (fun hK => (hcareful hK).1) hst
  have hids : IdStep s.mem (s.phase i) p' m' := by
    rcases hstep with ⟨a, -, hsubmit⟩ | ⟨hpass, -⟩
    · exact hsubmit.ids
    · exact hpass.ids
  have htask : ∀ id, p'.taskId ≠ some id → TaskStep K id s.mem (s.phase i) p' m' := by
    intro id hid
    rcases hstep with ⟨a, -, hsubmit⟩ | ⟨hpass, -⟩
    · exact hsubmit.apart hid
    · exact hpass.task h.ids.nodup id
  have hids' := h.ids.step hids
  have hgiven : ∀ id, p'.taskId = some id → id < m'.nextId := by
    intro id hid
    apply hids'.given i
    simpa only [update_self] using Option.mem_def.2 hid
  -- two submissions do not have one task
  have hapart : ∀ j, j ≠ i → ∀ id, (s.phase j).taskId = some id → p'.taskId ≠ some id := by
    intro j hji id hid hid'
    apply hji
    apply hids'.distinct j i id
    · simpa only [update_of_ne hji] using hid
    · simpa only [update_self] using hid'
  refine ⟨hids', ?_, ?_, ?_⟩
  · intro id hle
    have hnext : s.mem.nextId ≤ id := by
      cases hids with
      | keeps _ _ hnext => exact hnext ▸ hle
      | gives _ _ hnext => exact le_trans (hnext ▸ Nat.le_succ _) hle
    exact (h.unused id hnext).step (htask id fun hid => absurd (hgiven id hid) (not_lt.2 hle))
  · refine (forall_update_iff s.phase fun j p => p.taskId ≠ none → ∃ a, ops j = .submit a).2
      ⟨fun hp' => ?_, fun j _ => h.submits j⟩
    rcases hstep with ⟨a, hop, -⟩ | ⟨hpass, -⟩
    · exact ⟨a, hop⟩
    · exact absurd hpass.noTask hp'
  refine (forall_update_iff s.phase fun j p => ∀ a, ops j = .submit a → TaskFits K a _ p).2 ⟨?_, ?_⟩
  · intro a hi
    rcases hstep with ⟨a', hop, hsubmit⟩ | ⟨hpass, -⟩
    · obtain rfl := MjOp.submit.inj (hop.symm.trans hi)
      exact hsubmit.own (h.unused _ le_rfl) (h.tasks i a' hi)
    · exact .of_noTask hpass.noTask
  intro j hji a hj
  refine (h.tasks j a hj).other (fun id hid => htask id (hapart j hji id hid)) ?_
  intro hK task hsettling copy hcopy hidle hrow hcopyId
  rcases hstep with ⟨a', -, hsubmit⟩ | ⟨-, hpoll⟩
  · exact absurd hcopy (by rw [hsubmit.noCopies]; exact not_mem_nil)
  · exact (hcareful hK).2 (hpoll hidle) hidle j task hsettling copy hrow hcopyId

theorem MjFits.next (h : MjFits K ops s) (hcareful : K → MjCareful ops s ev) :
    MjFits K ops ((mjProgram ops).next s ev) := by
  apply Program.next_keeps h
  · rintro i e p m rfl hst
    exact h.step hcareful hst
  · exact nofun

variable {es : List (SharedEvent ι MjEnv Empty)}

theorem MjFits.run (h : MjFits False ops s) (hrun : Run (mjProgram ops).step s es s') : MjFits False ops s' := by
  apply hrun.inv _ h
  rintro s ev _ hs rfl
  exact hs.next False.elim

theorem MjFits.run_careful (h : MjFits True ops s)
    (hrun : Run (within (mjProgram ops).step (MjCareful ops)) s es s') : MjFits True ops s' := by
  apply hrun.inv _ h
  rintro s ev _ hs ⟨rfl, hcareful⟩
  exact hs.next fun _ => hcareful

structure MjStart (s : Shared ι MjPhase MjMem) : Prop where
  idle : ∀ i, s.phase i = .idle
  nodup : (s.mem.rows.map (·.id)).Nodup
  rows : ∀ row ∈ s.mem.rows, row.id < s.mem.nextId
  moves : ∀ mv ∈ s.mem.moves, mv.task < s.mem.nextId

omit [DecidableEq ι] in
theorem MjStart.fits (h : MjStart s) (K : Prop) (ops : ι → MjOp) : MjFits K ops s := by
  refine ⟨⟨h.nodup, ?_, ?_, ?_⟩, ?_, ?_, ?_⟩
  · intro id hid
    obtain ⟨row, hrow, rfl⟩ := mem_map.1 hid
    exact h.rows row hrow
  · intro j
    rw [h.idle j]
    exact nofun
  · intro j k id
    rw [h.idle j]
    exact nofun
  · intro id hle
    refine ⟨⟨?_, ?_⟩, ?_, ?_⟩
    · exact fun row hrow hid => absurd (h.rows row hrow) (not_lt.2 (hid ▸ hle))
    · intro i
      apply noCopy
      rw [h.idle i]
      rfl
    · unfold refunds
      rw [map_eq_nil_iff, filter_eq_nil_iff]
      intro mv hmv hid
      have hlt := h.moves mv hmv
      simp only [decide_eq_true_eq] at hid
      omega
    intro i
    rw [h.idle i]
    exact nofun
  · intro j
    rw [h.idle j]
    exact fun hnone => absurd rfl hnone
  · intro j a _
    rw [h.idle j]
    trivial

omit [DecidableEq ι] in
theorem TaskFits.task_cases {id : ℕ} (h : TaskFits K a s p) (hid : p.taskId = some id) :
    (∃ task, Charging K a task s ∧ task.id = id) ∨ TaskFits K a s (.submitted id) := by
  cases p with
  | inserted task | userCharged task => exact .inl ⟨task, h, Option.some.inj hid⟩
  | tokenCharged task => exact .inl ⟨task, h.2, Option.some.inj hid⟩
  | submitted => exact .inr (Option.some.inj hid ▸ h)
  | _ => cases hid

omit [DecidableEq ι] in
theorem TaskFits.unrefunded {id : ℕ} (h : TaskFits K a s p) (hid : p.taskId = some id)
    (hzero : a.charge = 0) : s.mem.refunds id = [] := by
  rcases h.task_cases hid with ⟨task, htask, rfl⟩ | hsubmitted
  · exact (htask.free hzero).refunds
  · exact (hsubmitted.1 hzero).refunds

omit [DecidableEq ι] in
theorem TaskFits.refunded {id : ℕ} {row : MjTask} (h : TaskFits True a s p) (hid : p.taskId = some id)
    (hcharge : a.charge ≠ 0) (hquiet : ∀ i, (s.phase i).refunding = none) (hrow : row ∈ s.mem.rows)
    (hrowId : row.id = id) (hfailed : row.HasFailed) : s.mem.refunds id = a.refund := by
  rcases h.task_cases hid with ⟨task, htask, rfl⟩ | hsubmitted
  · -- a task that is being charged has not failed
    exact absurd hfailed ((htask.settling trivial hcharge).view.rows row hrow hrowId).isOpen
  rcases hsubmitted.2 trivial hcharge with hopen | hfail
  · exact absurd hfailed (hopen.view.rows row hrow hrowId).1.isOpen
  cases hfail.paying with
  | due i hi => exact absurd hi (refundId_ne_of_none (refundId_none (hquiet i)))
  | paid hpaid => exact hpaid

/-- **A task is refunded once if it was charged and has failed, and never without a charge**, if the passes are
careful. -/
theorem mj_refunded_once {es : List (SharedEvent ι MjEnv Empty)} {j : ι} {id : ℕ} (hstart : MjStart s)
    (hrun : Run (mjProgram ops).step s es s') (hop : ops j = .submit a) (hid : (s'.phase j).taskId = some id) :
    (a.charge = 0 → s'.mem.refunds id = []) ∧
      (Run (within (mjProgram ops).step (MjCareful ops)) s es s' → (∀ i, (s'.phase i).refunding = none) →
        a.charge ≠ 0 → ∀ row ∈ s'.mem.rows, row.id = id → row.status = "FAILURE" → row.progress = "100%" →
          s'.mem.refunds id = a.refund) := by
  refine ⟨?_, fun hcareful hquiet hcharge row hrow hrowId hstatus hprogress => ?_⟩
  · exact (((hstart.fits False ops).run hrun).tasks j a hop).unrefunded hid
  · have hfits := ((hstart.fits True ops).run_careful hcareful).tasks j a hop
    exact hfits.refunded hid hcharge hquiet hrow hrowId ⟨hstatus, hprogress⟩

end Fits

def mjSample : MjSubmit where
  userId := 1
  tokenId := 7
  isPlayground := false
  subscription := false
  channelId := 3
  relayChannelId := 3
  price := 500
  swapFace := false
  upload := false
  consumeQuota := true
  statusOK := true
  code := 1
  description := ""
  result := "mj1"
  existing := none
  now := 0

def mjFailure : MjAnswer := ⟨"mj1", "", "", 0, 0, 0, "", "", none, "FAILURE", "100%", "banned", none, none⟩

def mjSampleOps (i : Fin 3) : MjOp := if i = 0 then .submit mjSample else .poll

def mjSampleStart : Shared (Fin 3) MjPhase MjMem := ⟨⟨[], 1, []⟩, fun _ => .idle⟩

theorem mjSample_start : MjStart mjSampleStart where
  idle := fun _ => rfl
  nodup := nodup_nil
  rows := by decide
  moves := by decide

def mjSampleCharged : List (SharedEvent (Fin 3) MjEnv Empty) := List.replicate 4 (.call 0 (.next 0))

def mjSampleEvents : List (SharedEvent (Fin 3) MjEnv Empty) :=
  mjSampleCharged ++ [.call 1 (.next 0), .call 2 (.next 0), .call 1 (.next 0), .call 2 (.next 0),
    .call 1 (.answers 3 [mjFailure]), .call 2 (.answers 3 [mjFailure]), .call 1 (.next 1), .call 2 (.next 1),
    .call 1 (.next 1), .call 1 (.next 1), .call 1 (.next 1), .call 1 (.next 1), .call 2 (.next 1)]

def mjSampleRow : MjTask :=
  ⟨1, 1, 1, "mj1", "", "", 0, 0, 0, "", "", "", "FAILURE", "100%", "banned", 3, 0, "", "", 7, 3⟩

theorem mj_refunded_once_two_passes :
    let s' := mjSampleEvents.foldl (mjProgram mjSampleOps).next mjSampleStart
    s'.mem.rows = [mjSampleRow] ∧ s'.mem.refunds 1 = [(.user 1, 500), (.token 7, 500)] := by
  have hcareful : Run (within (mjProgram mjSampleOps).step (MjCareful mjSampleOps)) mjSampleStart mjSampleEvents
      (mjSampleEvents.foldl (mjProgram mjSampleOps).next mjSampleStart) := Run.of_allowed (by decide +kernel)
  have honce := mj_refunded_once (j := 0) mjSample_start hcareful.of_within rfl (show _ = some 1 by decide +kernel)
  refine ⟨by decide +kernel, ?_⟩
  exact honce.2 hcareful (by decide +kernel) (by decide +kernel) mjSampleRow (by decide +kernel) rfl rfl rfl

def mjMissingChannel : List (SharedEvent (Fin 3) MjEnv Empty) :=
  mjSampleCharged ++ [.call 1 (.next 0), .call 1 (.next 0), .call 1 (.channelMissing 3), .call 1 (.next 0)]

theorem mj_missing_channel_keeps_charge :
    let s' := mjMissingChannel.foldl (mjProgram mjSampleOps).next mjSampleStart
    Run (mjProgram mjSampleOps).step mjSampleStart mjMissingChannel s' ∧ MjStart mjSampleStart ∧
      s'.phase 0 = .submitted 1 ∧ s'.phase 1 = .finished ∧
      (s'.mem.rows.map fun row => (row.id, row.status, row.progress)) = [(1, "FAILURE", "100%")] ∧
      s'.mem.moves = [⟨1, .user 1, -500⟩, ⟨1, .token 7, -500⟩] := by
  refine ⟨Run.of_foldl _ _ _, mjSample_start, ?_, ?_, ?_, ?_⟩ <;> decide +kernel

end NewApi
