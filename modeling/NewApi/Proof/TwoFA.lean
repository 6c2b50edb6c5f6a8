import NewApi.Spec.TwoFA
import Mathlib.Algebra.Order.BigOperators.Group.Finset
import Mathlib.Data.Fintype.Card

/-!
# Backup codes and failures

`TwoFAStep` and, for wrong codes, `FailureStep` say once what a statement can do. In every interleaving, no backup code
lets two calls pass, and no failed check is lost.
-/

namespace NewApi

open Trace Function

variable {H ι : Type} {lib : BackupLib H} {call : TwoFACall} {e : TwoFAEnv} {p p' : TwoFAPhase H} {m m' : TwoFAMem H}

namespace TwoFAPhase

/-- The backup code that the call has used up -/
def used : TwoFAPhase H → Option ℕ
  | valid id | passed id => id
  | _ => none

def counted : TwoFAPhase H → ℕ
  | rejected true => 1
  | _ => 0

end TwoFAPhase

inductive TwoFAStep (m : TwoFAMem H) (p p' : TwoFAPhase H) : TwoFAMem H → Prop
  | used {id : ℕ} (hunused : m.isUnused id = true) (hp' : p' = .valid (some id)) : TwoFAStep m p p' (m.use id)
  | same {failedAttempts : ℕ} {lockedUntil : Option ℤ} (hused : p'.used = p.used) :
    TwoFAStep m p p' { m with failedAttempts, lockedUntil }

theorem twoFA_step (h : twoFAStmt lib call e p m = some (p', m')) : TwoFAStep m p p' m' := by
  cases p with
  | passed | rejected => cases h
  | valid =>
    cases h
    split_ifs <;> exact .same rfl
  | unused =>
    simp only [twoFAStmt] at h
    split at h
    · cases h
      exact .same rfl
    split_ifs at h with herr hunused <;> cases h
    · exact .same rfl
    · exact .used hunused rfl
    · exact .same rfl
  | checking =>
    simp only [twoFAStmt] at h
    split at h <;> split_ifs at h <;> cases h <;> exact .same rfl
  | idle | current | update =>
    simp only [twoFAStmt] at h
    split_ifs at h <;> cases h <;> exact .same rfl
  | failing retries =>
    cases retries <;> cases h
    · exact .same rfl
    · split_ifs <;> exact .same rfl

theorem isUnused_use {id k : ℕ} (h : (m.use id).isUnused k = true) : k ≠ id ∧ m.isUnused k = true := by
  simp only [TwoFAMem.isUnused, TwoFAMem.use, List.any_map, List.any_eq_true, Function.comp] at h ⊢
  obtain ⟨row, hrow, hk⟩ := h
  split_ifs at hk with hid
  · simp at hk
  · simp only [decide_eq_true_eq] at hk
    exact ⟨fun hkid => hid (hk.1.trans hkid), row, hrow, by simpa using hk⟩

theorem TwoFAStep.unused {k : ℕ} (h : TwoFAStep m p p' m') (hk : m'.isUnused k = true) : m.isUnused k = true := by
  cases h with
  | same => exact hk
  | used => exact (isUnused_use hk).2

theorem TwoFAStep.own {id : ℕ} (h : TwoFAStep m p p' m') (hused : p'.used = some id) :
    p.used = some id ∨ m.isUnused id = true ∧ m'.isUnused id = false := by
  cases h with
  | same hsame => exact .inl (hsame ▸ hused)
  | used hunused hp' =>
    subst hp'
    cases hused
    exact .inr ⟨hunused, Bool.eq_false_iff.2 fun hagain => (isUnused_use hagain).1 rfl⟩

variable {s s' : Shared ι (TwoFAPhase H) (TwoFAMem H)} {calls : ι → TwoFACall}

structure CodesFit (s : Shared ι (TwoFAPhase H) (TwoFAMem H)) : Prop where
  spent : ∀ i id, (s.phase i).used = some id → s.mem.isUnused id = false
  once : s.Once fun _ => TwoFAPhase.used

variable [DecidableEq ι] {es : List (SharedEvent ι TwoFAEnv ℕ)} {i j : ι}

theorem CodesFit.next (h : CodesFit s) (ev : SharedEvent ι TwoFAEnv ℕ) :
    CodesFit ((twoFAProgram lib calls).next s ev) := by
  apply Program.next_keeps h
  · rintro i e p m - hst
    have hstep := twoFA_step hst
    -- a code that a call has used before is not unused again
    have hbefore (j : ι) (id : ℕ) (hused : (s.phase j).used = some id) : m.isUnused id = false := by
      refine Bool.eq_false_iff.2 fun hagain => ?_
      simpa [hstep.unused hagain] using h.spent j id hused
    refine ⟨?_, h.once.update ?_⟩
    · intro j id hused
      by_cases hj : j = i
      · subst hj
        simp only [update_self] at hused
        exact (hstep.own hused).elim (hbefore j id) And.right
      · simp only [update_of_ne hj] at hused
        exact hbefore j id hused
    · intro id hused
      refine (hstep.own hused).imp_right ?_
      rintro ⟨hunused, -⟩ j - hj
      rw [h.spent j id hj] at hunused
      cases hunused
  · rintro time -
    exact ⟨h.spent, h.once⟩

/-- **A backup code works once**: no two calls pass with it, in every interleaving. -/
theorem backup_code_once {id : ℕ} (hidle : ∀ i, s.phase i = .idle)
    (hrun : Run (twoFAProgram lib calls).step s es s') (hij : i ≠ j) (hi : s'.phase i = .passed (some id)) :
    s'.phase j ≠ .passed (some id) := by
  have hstart : CodesFit s := by
    constructor <;> intro i <;> simp [hidle, TwoFAPhase.used]
  have hend : CodesFit s' := by
    apply hrun.inv _ hstart
    rintro s ev _ h rfl
    exact h.next ev
  intro hj
  exact hij (hend.once i j id (congrArg TwoFAPhase.used hi) (congrArg TwoFAPhase.used hj))

def sampleBackupLib : BackupLib String := ⟨fun _ => true, (· == ·)⟩

def sampleTwoFA (failedAttempts : ℕ) : Shared (Fin 2) (TwoFAPhase String) (TwoFAMem String) :=
  ⟨⟨failedAttempts, none, [⟨3, "code", false⟩], 0⟩, fun _ => .idle⟩

def sampleTwoFAEvents (is : List (Fin 2)) : List (SharedEvent (Fin 2) TwoFAEnv ℕ) :=
  is.map (.call · ⟨false, false⟩)

-- both calls find the code unused
theorem backup_code_once_race :
    let next := (twoFAProgram sampleBackupLib fun _ => ⟨none, some "code"⟩).next
    let s' := (sampleTwoFAEvents [0, 1, 0, 1, 0, 1, 0]).foldl next (sampleTwoFA 0)
    s'.phase 1 ≠ .passed (some 3) := by
  intro next s'
  exact backup_code_once (fun _ => rfl) (Run.of_foldl next _ _) Fin.zero_ne_one rfl

section Failures

variable {n : ℕ}

/-- The copy is not locked, and the code is wrong. -/
def TwoFACall.Wrong (lib : BackupLib H) (codes : List (TwoFABackupCode H)) (call : TwoFACall) : Prop :=
  call.lockedUntil = none ∧
    ∀ code ∈ call.backup, lib.valid code = true ∧ ∀ row ∈ codes, lib.verify code row.codeHash = false

/-- A check of a wrong code. For every swap that it has lost, there is one more failure than the first `n`. -/
def TwoFAPhase.Failing (lib : BackupLib H) (n : ℕ) (m : TwoFAMem H) : TwoFAPhase H → Prop
  | idle | checking | rejected true => True
  | unused code codes => ∀ row ∈ codes, lib.verify code row.codeHash = false
  | failing retries => n + 5 ≤ retries + m.failedAttempts
  | current retries failedAttempts lockedUntil | update retries failedAttempts lockedUntil _ =>
    lockedUntil = none ∧ failedAttempts ≤ m.failedAttempts ∧ n + 4 ≤ retries + failedAttempts
  | _ => False

theorem TwoFAPhase.Failing.mono (h : p.Failing lib n m) (hle : m.failedAttempts ≤ m'.failedAttempts) :
    p.Failing lib n m' := by
  cases p with
  | failing => exact h.trans (Nat.add_le_add_left hle _)
  | current | update => exact ⟨h.1, h.2.1.trans hle, h.2.2⟩
  | rejected counted => cases counted <;> exact h
  | _ => exact h

/-- The failure is counted, or nothing has changed. -/
inductive FailureStep (lib : BackupLib H) (n : ℕ) (m : TwoFAMem H) (p' : TwoFAPhase H) : TwoFAMem H → Prop
  | same (hfailing : p'.Failing lib n m) (hcounted : p'.counted = 0) : FailureStep lib n m p' m
  | counted {lockedUntil : Option ℤ} (hp' : p' = .rejected true)
    (hlock : lockedUntil = none ↔ m.failedAttempts + 1 < 5) :
    FailureStep lib n m p' { m with failedAttempts := m.failedAttempts + 1, lockedUntil }

theorem failure_step (hcall : call.Wrong lib m.codes) (hp : p.Failing lib n m) (hn : n ≤ m.failedAttempts)
    (hfew : m.failedAttempts < 5) (hlock : m.lockedUntil = none)
    (h : twoFAStmt lib call ⟨false, false⟩ p m = some (p', m')) : FailureStep lib n m p' m' := by
  obtain ⟨hcopy, hcode⟩ := hcall
  have hfirst : (TwoFAPhase.failing 5).Failing lib n m := by
    unfold TwoFAPhase.Failing
    omega
  cases p with
  | passed | valid => cases hp
  | rejected => cases h
  | idle =>
    simp only [twoFAStmt, hcopy] at h
    cases h
    exact .same trivial rfl
  | checking =>
    simp only [twoFAStmt] at h
    split at h
    · cases h
      exact .same hfirst rfl
    · obtain ⟨hvalid, hwrong⟩ := hcode _ ‹_›
      simp only [hvalid] at h
      cases h
      exact .same (fun row hrow => hwrong row (List.mem_of_mem_filter hrow)) rfl
  | unused code codes =>
    have hnone : codes.find? (fun row => lib.verify code row.codeHash) = none :=
      List.find?_eq_none.2 fun row hrow => Bool.eq_false_iff.1 (hp row hrow)
    simp only [twoFAStmt, hnone] at h
    cases h
    exact .same hfirst rfl
  | failing retries =>
    have hlost : n + 5 ≤ retries + m.failedAttempts := hp
    cases retries with
    | zero => omega
    | succ retries =>
      cases h
      exact .same ⟨hlock, le_rfl, by omega⟩ rfl
  | current =>
    obtain ⟨rfl, hread⟩ := hp
    cases h
    exact .same ⟨rfl, hread⟩ rfl
  | update retries failedAttempts lockedUntil now =>
    obtain ⟨rfl, hread, hlost⟩ := hp
    have hopen : ¬ IsLocked now m.lockedUntil := by simp [hlock, IsLocked]
    simp only [twoFAStmt, Bool.false_eq_true, if_false, hopen, not_false_eq_true, and_true] at h
    split_ifs at h with hsame hfive <;> cases h
    · subst hsame
      exact .counted rfl (iff_of_false (Option.some_ne_none _) (not_lt.2 hfive))
    · subst hsame
      exact .counted rfl (iff_of_true rfl (not_le.1 hfive))
    · have hless : n + 5 ≤ retries + m.failedAttempts := by omega
      exact .same hless rfl

variable [Fintype ι]

structure FailuresFit (lib : BackupLib H) (calls : ι → TwoFACall) (n : ℕ)
    (s : Shared ι (TwoFAPhase H) (TwoFAMem H)) : Prop where
  wrong : ∀ i, (calls i).Wrong lib s.mem.codes
  failing : ∀ i, (s.phase i).Failing lib n s.mem
  count : s.mem.failedAttempts = n + ∑ i, (s.phase i).counted
  lock : s.mem.lockedUntil = none ↔ s.mem.failedAttempts < 5

omit [DecidableEq ι] in
/-- A call that is not counted yet leaves room for its failure. -/
theorem sum_counted_lt (φ : ι → TwoFAPhase H) (h : (φ i).counted = 0) : ∑ j, (φ j).counted < Fintype.card ι := by
  have hle (q : TwoFAPhase H) : q.counted ≤ 1 := by
    unfold TwoFAPhase.counted
    split <;> omega
  calc ∑ j, (φ j).counted < ∑ _j : ι, 1 :=
        Finset.sum_lt_sum (fun j _ => hle _) ⟨i, Finset.mem_univ i, by omega⟩
    _ = Fintype.card ι := by simp

theorem FailuresFit.next (h : FailuresFit lib calls n s) (hfew : n + Fintype.card ι ≤ 5)
    {ev : SharedEvent ι TwoFAEnv ℕ} (hev : ∀ i e, ev = .call i e → e = ⟨false, false⟩) :
    FailuresFit lib calls n ((twoFAProgram lib calls).next s ev) := by
  apply Program.next_keeps h
  · rintro i e p m hcall hst
    obtain rfl := hev i e hcall
    have hzero : (s.phase i).counted = 0 := by
      cases hi : s.phase i with
      | rejected => rw [hi] at hst; cases hst
      | _ => rfl
    have hlt := sum_counted_lt s.phase hzero
    have hcount := h.count
    have hsum := Shared.sum_update (fun _ => TwoFAPhase.counted) s.phase i p
    rw [hzero, add_zero] at hsum
    have hothers (hp : p.Failing lib n m) (hle : s.mem.failedAttempts ≤ m.failedAttempts) (j : ι) :
        (update s.phase i p j).Failing lib n m := by
      by_cases hj : j = i
      · subst hj
        rwa [update_self]
      · rw [update_of_ne hj]
        exact (h.failing j).mono hle
    have hfive : s.mem.failedAttempts < 5 := by omega
    cases failure_step (h.wrong i) (h.failing i) (by omega) hfive (h.lock.2 hfive) hst with
    | same hfailing hcounted =>
      rw [hcounted, add_zero] at hsum
      exact ⟨h.wrong, hothers hfailing le_rfl, hcount.trans (congrArg _ hsum.symm), h.lock⟩
    | counted hp hlock =>
      subst hp
      refine ⟨h.wrong, hothers trivial (Nat.le_succ _), ?_, hlock⟩
      rw [hsum, ← add_assoc, ← hcount]
      rfl
  · rintro time -
    exact ⟨h.wrong, fun i => (h.failing i).mono le_rfl, h.count, h.lock⟩

/-- **No failed check is lost**: when wrong codes are checked at the same time, and are no more than are left until the
lock, every check that has returned is counted, and the fifth failure locks the factor. -/
theorem failures_counted (hidle : ∀ i, s.phase i = .idle) (hwrong : ∀ i, (calls i).Wrong lib s.mem.codes)
    (hlock : s.mem.lockedUntil = none ↔ s.mem.failedAttempts < 5) (hfew : s.mem.failedAttempts + Fintype.card ι ≤ 5)
    (hcalm : ∀ i e, .call i e ∈ es → e = ⟨false, false⟩) (hrun : Run (twoFAProgram lib calls).step s es s') :
    (∀ i, s'.phase i ≠ .rejected false) ∧
      s'.mem.failedAttempts = s.mem.failedAttempts + ∑ i, (s'.phase i).counted ∧
      (s'.mem.lockedUntil = none ↔ s'.mem.failedAttempts < 5) := by
  have hstart : FailuresFit lib calls s.mem.failedAttempts s := by
    refine ⟨hwrong, fun i => ?_, ?_, hlock⟩
    · rw [hidle i]
      trivial
    · simp [hidle, TwoFAPhase.counted]
  have hend : FailuresFit lib calls s.mem.failedAttempts s' := by
    apply (hrun.within_of (P := fun ev => ∀ i e, ev = .call i e → e = ⟨false, false⟩) ?_).inv _ hstart
    · rintro s ev _ h ⟨rfl, hev⟩
      exact h.next hfew hev
    · rintro _ hev i e rfl
      exact hcalm i e hev
  refine ⟨fun i hi => ?_, hend.count, hend.lock⟩
  have hfailing := hend.failing i
  rwa [hi] at hfailing

-- both calls read three failures, and the one that comes second swaps once more
theorem failures_counted_twice :
    let next := (twoFAProgram sampleBackupLib fun _ => ⟨none, none⟩).next
    let s' := (sampleTwoFAEvents [0, 1, 0, 1, 0, 1, 0, 1, 0, 1, 1, 1, 1]).foldl next (sampleTwoFA 3)
    (∀ i, s'.phase i ≠ .rejected false) ∧ s'.mem.failedAttempts = 5 ∧ s'.mem.lockedUntil ≠ none := by
  intro next s'
  have hrun : Run (twoFAProgram sampleBackupLib fun _ => ⟨none, none⟩).step (sampleTwoFA 3) _ s' :=
    Run.of_foldl next _ _
  have h := failures_counted (fun _ => rfl) (fun _ => ⟨rfl, by simp⟩) (by decide) (by decide)
    (by simp [sampleTwoFAEvents]) hrun
  have hfive : s'.mem.failedAttempts = 5 := h.2.1.trans (by decide +kernel)
  exact ⟨h.1, hfive, fun hnone => absurd (h.2.2.1 hnone) (not_lt.2 hfive.ge)⟩

end Failures

end NewApi
