import NewApi.Trace.Run
import Mathlib.Algebra.BigOperators.Group.Finset.Basic
import Mathlib.Data.Fintype.Basic

/-!
# Calls that run at the same time

Any number of calls work on one memory. A call is in a phase of its own, and an atomic statement moves its phase and
the memory, or has to wait. Between the statements the environment moves the memory alone.

* `Shared.Holds.next`, `Shared.Holds.run`: a fact about the memory, and one about each call that the statements of the
  others leave alone, hold in every state that is reached.
* `Shared.At`: one call, statement by statement.
* `Shared.sum_update`: sums over all calls.
* `Shared.Once`: no two calls have the same key.
* `Program.phase_of_run`, `Program.phase_of_moves`: a call that has returned stays as it is.
* `Program.mem_of_run`: what every statement and every move of the environment keeps of the memory alone.
-/

namespace Trace

open Function

structure Shared (ι P M : Type*) where
  mem : M
  phase : ι → P

/-- The next statement of a call, with what is decided outside of it, or a move of the environment. -/
inductive SharedEvent (ι E V : Type*)
  | call (i : ι) (e : E)
  | env (v : V)
  deriving DecidableEq

def SharedEvent.isOf {ι E V : Type*} [DecidableEq ι] (i : ι) : SharedEvent ι E V → Bool
  | .call j _ => decide (j = i)
  | .env _ => false

/-- What the calls and the environment do; `none` is a statement that has to wait. -/
structure Program (ι P M E V : Type*) where
  stmt : ι → E → P → M → Option (P × M)
  env : V → M → M

variable {ι P M E V : Type*} [DecidableEq ι] {π : Program ι P M E V}

def Program.next (π : Program ι P M E V) (s : Shared ι P M) : SharedEvent ι E V → Shared ι P M
  | .call i e =>
    match π.stmt i e (s.phase i) s.mem with
    | none => s
    | some (p, m) => ⟨m, Function.update s.phase i p⟩
  | .env v => ⟨π.env v s.mem, s.phase⟩

def Program.step (π : Program ι P M E V) : Shared ι P M → SharedEvent ι E V → Shared ι P M → Prop :=
  fun s ev s' => s' = π.next s ev

variable {s s' : Shared ι P M} {es : List (SharedEvent ι E V)} {i : ι} {e : E} {p : P} {m : M} {v : V}

theorem Program.next_none (h : π.stmt i e (s.phase i) s.mem = none) : π.next s (.call i e) = s := by simp [next, h]

theorem Program.next_some (h : π.stmt i e (s.phase i) s.mem = some (p, m)) :
    π.next s (.call i e) = ⟨m, update s.phase i p⟩ := by
  simp [next, h]

theorem Program.eq_of_moves {mv : Shared ι P M × SharedEvent ι E V × Shared ι P M} (h : moves π.step s mv s') :
    ∃ ev, mv = (s, ev, π.next s ev) ∧ s' = π.next s ev := by
  obtain ⟨s1, ev, s2⟩ := mv
  obtain ⟨hs, hstep, hs'⟩ := h
  obtain rfl := hs
  obtain rfl := hs'
  obtain rfl : s2 = π.next s1 ev := hstep
  exact ⟨ev, rfl, rfl⟩

theorem Program.next_of_mem {ms : List (Shared ι P M × SharedEvent ι E V × Shared ι P M)}
    (hrun : Run (moves π.step) s ms s') : ∀ mv ∈ ms, mv.2.2 = π.next mv.1 mv.2.1 := by
  apply hrun.each (I := fun _ => True) (P := fun mv => mv.2.2 = π.next mv.1 mv.2.1) _ trivial
  intro a mv b _ hmv
  obtain ⟨ev, rfl, rfl⟩ := eq_of_moves hmv
  exact ⟨trivial, rfl⟩

theorem Program.next_cases (π : Program ι P M E V) (s : Shared ι P M) (ev : SharedEvent ι E V) :
    π.next s ev = s ∨ (∃ i e p m, ev = .call i e ∧ π.stmt i e (s.phase i) s.mem = some (p, m) ∧
        π.next s ev = ⟨m, update s.phase i p⟩) ∨
      ∃ v, ev = .env v ∧ π.next s ev = ⟨π.env v s.mem, s.phase⟩ := by
  cases ev with
  | call i e =>
    cases h : π.stmt i e (s.phase i) s.mem with
    | none => exact .inl (next_none h)
    | some pm => exact .inr (.inl ⟨i, e, pm.1, pm.2, rfl, h, next_some h⟩)
  | env v => exact .inr (.inr ⟨v, rfl, rfl⟩)

theorem Program.next_keeps {I : Shared ι P M → Prop} {ev : SharedEvent ι E V} (h : I s)
    (hstmt : ∀ i e p m, ev = .call i e → π.stmt i e (s.phase i) s.mem = some (p, m) → I ⟨m, update s.phase i p⟩)
    (henv : ∀ v, ev = .env v → I ⟨π.env v s.mem, s.phase⟩) : I (π.next s ev) := by
  rcases π.next_cases s ev with heq | ⟨i, e, p, m, hev, hst, heq⟩ | ⟨v, hev, heq⟩
  · rw [heq]
    exact h
  · exact heq ▸ hstmt i e p m hev hst
  · exact heq ▸ henv v hev

/-- A fact about the memory, and one about each call. -/
structure Shared.Holds (G : M → Prop) (F : ι → M → P → Prop) (s : Shared ι P M) : Prop where
  mem : G s.mem
  phase : ∀ i, F i s.mem (s.phase i)

variable {G : M → Prop} {F : ι → M → P → Prop}

/-- A statement of the call `i` keeps what holds: its own fact, and that of every other call. -/
structure KeepsAt (G : M → Prop) (F : ι → M → P → Prop) (i : ι) (m m' : M) (p' : P) : Prop where
  mem : G m'
  own : F i m' p'
  others : ∀ j q, j ≠ i → F j m q → F j m' q

structure EnvKeeps (G : M → Prop) (F : ι → M → P → Prop) (m m' : M) : Prop where
  mem : G m'
  phase : ∀ j q, F j m q → F j m' q

namespace Shared.Holds

theorem next {ev : SharedEvent ι E V} (h : s.Holds G F)
    (hstmt : ∀ i e p' m', ev = .call i e → π.stmt i e (s.phase i) s.mem = some (p', m') → KeepsAt G F i s.mem m' p')
    (henv : ∀ v, ev = .env v → EnvKeeps G F s.mem (π.env v s.mem)) : (π.next s ev).Holds G F := by
  apply Program.next_keeps h
  · rintro i e p m hev hst
    obtain ⟨hmem, hown, hothers⟩ := hstmt i e p m hev hst
    refine ⟨hmem, ?_⟩
    intro j
    by_cases hj : j = i
    · subst hj
      simpa only [update_self] using hown
    · simpa only [update_of_ne hj] using hothers j _ hj (h.phase j)
  · rintro v hev
    obtain ⟨hmem, hphase⟩ := henv v hev
    exact ⟨hmem, fun j => hphase j _ (h.phase j)⟩

theorem run (hstmt : ∀ i e p m p' m', G m → F i m p → π.stmt i e p m = some (p', m') → KeepsAt G F i m m' p')
    (henv : ∀ v m, G m → EnvKeeps G F m (π.env v m)) (hrun : Run π.step s es s') (h : s.Holds G F) :
    s'.Holds G F := by
  apply hrun.inv _ h
  rintro s ev _ hs rfl
  apply hs.next
  · intro i e p' m' _ hst
    exact hstmt i e _ _ p' m' hs.mem (hs.phase i) hst
  · intro v _
    exact henv v _ hs.mem

end Shared.Holds

namespace Shared

/-- The call `i` is in this phase, over this memory. -/
def At (i : ι) (p : P) (m : M) (s : Shared ι P M) : Prop := s.phase i = p ∧ s.mem = m

theorem At.next {p' : P} {m' : M} (h : s.At i p m) (hst : π.stmt i e p m = some (p', m')) :
    (π.next s (.call i e)).At i p' m' := by
  obtain ⟨rfl, rfl⟩ := h
  rw [Program.next_some hst]
  exact ⟨update_self .., rfl⟩

theorem At.stays (π : Program ι P M E V) (e : E) (h : s.At i p m) (hst : π.stmt i e p m = none) (n : ℕ) :
    ((List.replicate n (.call i e)).foldl π.next s).At i p m := by
  induction n with
  | zero => exact h
  | succ n ih =>
    have hwait : π.next s (.call i e) = s := by
      apply Program.next_none
      rw [h.1, h.2]
      exact hst
    rw [List.replicate_succ, List.foldl_cons, hwait]
    exact ih

end Shared

/-- What a call can have only alone: no two calls have the same key. -/
def Shared.Once {κ : Type*} (key : ι → P → Option κ) (s : Shared ι P M) : Prop :=
  ∀ i j k, key i (s.phase i) = some k → key j (s.phase j) = some k → i = j

theorem Shared.Once.update {κ : Type*} {key : ι → P → Option κ} (h : s.Once key)
    (hnew : ∀ k, key i p = some k → key i (s.phase i) = some k ∨ ∀ j, j ≠ i → key j (s.phase j) ≠ some k) :
    Shared.Once key ⟨m, update s.phase i p⟩ := by
  -- the call that has moved against any other
  have hmoved : ∀ j k, j ≠ i → key i p = some k → key j (s.phase j) ≠ some k := by
    intro j k hj hk hkj
    rcases hnew k hk with hold | hfree
    · exact hj (h j i k hkj hold)
    · exact hfree j hj hkj
  intro j1 j2 k h1 h2
  by_cases hj1 : j1 = i
  · by_cases hj2 : j2 = i
    · exact hj1.trans hj2.symm
    subst hj1
    simp only [update_self] at h1
    simp only [update_of_ne hj2] at h2
    exact absurd h2 (hmoved j2 k hj2 h1)
  simp only [update_of_ne hj1] at h1
  by_cases hj2 : j2 = i
  · subst hj2
    simp only [update_self] at h2
    exact absurd h1 (hmoved j1 k hj1 h2)
  · simp only [update_of_ne hj2] at h2
    exact h j1 j2 k h1 h2

theorem Shared.sum_update {G : Type*} [AddCommMonoid G] [Fintype ι] (f : ι → P → G) (φ : ι → P) (i : ι) (p : P) :
    ∑ j, f j (update φ i p j) + f i (φ i) = ∑ j, f j (φ j) + f i p := by
  have hrest : ∑ j ∈ Finset.univ.erase i, f j (update φ i p j) = ∑ j ∈ Finset.univ.erase i, f j (φ j) := by
    apply Finset.sum_congr rfl
    intro j hj
    rw [update_of_ne (Finset.ne_of_mem_erase hj)]
  rw [← Finset.add_sum_erase _ (fun j => f j (update φ i p j)) (Finset.mem_univ i),
    ← Finset.add_sum_erase _ (fun j => f j (φ j)) (Finset.mem_univ i), hrest, update_self]
  rw [add_right_comm, add_right_comm (f i (φ i)), add_comm (f i p)]

theorem Program.phase_of_run (hp : ∀ e m, π.stmt i e p m = none) (hrun : Run π.step s es s') (h : s.phase i = p) :
    s'.phase i = p := by
  apply hrun.inv _ h
  rintro s ev _ hs rfl
  apply next_keeps (I := fun s => s.phase i = p) hs
  · rintro j e p' m - hst
    have hij : i ≠ j := by
      rintro rfl
      rw [hs, hp] at hst
      cases hst
    simpa only [update_of_ne hij] using hs
  · rintro v -
    exact hs

/-- **The last statement of a call** decides its phase at the end. -/
theorem Program.phase_of_moves {ms : List (Shared ι P M × SharedEvent ι E V × Shared ι P M)}
    {mv : Shared ι P M × SharedEvent ι E V × Shared ι P M} (hp : ∀ e m, π.stmt i e p m = none)
    (hrun : Run (moves π.step) s ms s') (hmv : mv ∈ ms) (h : mv.2.2.phase i = p) : s'.phase i = p := by
  obtain ⟨as, bs, hms⟩ := List.append_of_mem hmv
  obtain ⟨a, b, -, hmove, hafter⟩ := hrun.split hms
  rw [hmove.2.2] at h
  exact phase_of_run hp hafter.of_moves h

/-- **The memory alone.** -/
theorem Program.mem_of_run {R : M → M → Prop} (hrefl : ∀ m, R m m) (htrans : ∀ a b c, R a b → R b c → R a c)
    (hstmt : ∀ i e p m p' m', π.stmt i e p m = some (p', m') → R m m') (henv : ∀ v m, R m (π.env v m))
    (hrun : Run π.step s es s') : R s.mem s'.mem := by
  induction hrun with
  | nil s => exact hrefl _
  | @cons s _ _ ev _ hst _ ih =>
    refine htrans _ _ _ ?_ ih
    rw [show _ = π.next s ev from hst]
    exact next_keeps (I := fun t => R s.mem t.mem) (hrefl _) (fun i e p m _ => hstmt i e _ _ p m) fun v _ => henv v _

end Trace
