import Mathlib.Data.List.Count
import Mathlib.Logic.Relation
import Mathlib.Algebra.BigOperators.Group.List.Basic
import Mathlib.Algebra.Order.Monoid.Defs

/-!
# Runs of a labelled step relation

A system is a relation `step s l s'`, where an observer sees the label `l` of a move. A run is a finite sequence of
moves.

* `Run.inv`, `Run.simulates`: what every move keeps, of a state, or between it and its specification.
* `Run.countP_le_one`: a label that only an armed state emits, and that disarms it for good, is emitted at most once.
* `Run.countP_le_budget`, `Run.sum_map_le`: labels and amounts that are paid for out of a budget of the state.
* `Run.sum_map`: a quantity that every move changes by an amount of its label changes by their sum.
* `Run.nodup_filterMap`, `Run.none_after`: values that are used up, and labels that are ruled out for good.
* `Run.of_foldl`, `Run.of_allowed`, `Run.trail`, `Run.of_trail`: a system that moves by a function can be run.
* `Run.each`, `Run.exists_change`, `Run.countdown`, `Run.split`, `Run.kept_until`: single moves, and the run around
  them.
-/

namespace Trace

open List

variable {S L : Type*}

/-- A finite run with its labels, in order. -/
inductive Run (step : S → L → S → Prop) : S → List L → S → Prop
  | nil (s : S) : Run step s [] s
  | cons {s s' s'' : S} {l : L} {ls : List L} :
      step s l s' → Run step s' ls s'' → Run step s (l :: ls) s''

/-- The moves of `step` that meet `C`, a condition on the state before the move
and on what the environment chose. -/
def within (step : S → L → S → Prop) (C : S → L → Prop) : S → L → S → Prop := fun s l s' => step s l s' ∧ C s l

/-- The moves of `step`, each seen with the states that it is made between. -/
def moves (step : S → L → S → Prop) : S → S × L × S → S → Prop := fun s m s' => m.1 = s ∧ step s m.2.1 s' ∧ m.2.2 = s'

variable {step : S → L → S → Prop} {C : S → L → Prop} {s s' : S} {ls : List L}

theorem Run.of_within (h : Run (within step C) s ls s') : Run step s ls s' := by
  induction h with
  | nil s => exact .nil s
  | cons hst _ ih => exact .cons hst.1 ih

theorem Run.within_of {P : L → Prop} (h : Run step s ls s') (hls : ∀ l ∈ ls, P l) :
    Run (within step fun _ l => P l) s ls s' := by
  induction h with
  | nil s => exact .nil s
  | cons hst _ ih => exact .cons ⟨hst, hls _ mem_cons_self⟩ (ih fun l hl => hls l (mem_cons_of_mem _ hl))

theorem Run.within_imp {C' : S → L → Prop} (hC : ∀ s l, C s l → C' s l) (h : Run (within step C) s ls s') :
    Run (within step C') s ls s' := by
  induction h with
  | nil s => exact .nil s
  | cons hst _ ih => exact .cons ⟨hst.1, hC _ _ hst.2⟩ ih

theorem Run.within_and {C' : S → L → Prop} (h : Run (within step fun s l => C s l ∧ C' s l) s ls s') :
    Run (within (within step C) C') s ls s' := by
  induction h with
  | nil s => exact .nil s
  | cons hst _ ih => exact .cons ⟨⟨hst.1, hst.2.1⟩, hst.2.2⟩ ih

theorem Run.of_foldl (next : S → L → S) (s : S) (ls : List L) :
    Run (fun s l s' => s' = next s l) s ls (ls.foldl next s) := by
  induction ls generalizing s with
  | nil => exact .nil s
  | cons l ls ih => exact .cons rfl (ih (next s l))

/-- Every move that the labels call for meets the condition, where a move is made by a function. -/
def allowed (next : S → L → S) (C : S → L → Prop) [∀ s l, Decidable (C s l)] : S → List L → Bool
  | _, [] => true
  | s, l :: ls => decide (C s l) && allowed next C (next s l) ls

theorem Run.of_allowed {next : S → L → S} [∀ s l, Decidable (C s l)] (h : allowed next C s ls = true) :
    Run (within (fun s l s' => s' = next s l) C) s ls (ls.foldl next s) := by
  induction ls generalizing s with
  | nil => exact .nil s
  | cons l ls ih =>
    unfold allowed at h
    rw [Bool.and_eq_true, decide_eq_true_eq] at h
    exact .cons ⟨rfl, h.1⟩ (ih h.2)

/-- The moves that the labels call for, with the states before and after each. -/
def trail (next : S → L → S) : S → List L → List (S × L × S)
  | _, [] => []
  | s, l :: ls => (s, l, next s l) :: trail next (next s l) ls

theorem Run.trail (next : S → L → S) (s : S) (ls : List L) :
    Run (moves fun s l s' => s' = next s l) s (trail next s ls) (ls.foldl next s) := by
  induction ls generalizing s with
  | nil => exact .nil s
  | cons l ls ih => exact .cons ⟨rfl, rfl, rfl⟩ (ih (next s l))

theorem Run.of_trail {next : S → L → S} [∀ s l, Decidable (C s l)] (ls : List L) (h : allowed next C s ls = true) :
    Run (moves (within (fun s l s' => s' = next s l) C)) s (Trace.trail next s ls) (ls.foldl next s) := by
  induction ls generalizing s with
  | nil => exact .nil s
  | cons l ls ih =>
    unfold allowed at h
    rw [Bool.and_eq_true, decide_eq_true_eq] at h
    exact .cons ⟨rfl, ⟨rfl, h.1⟩, rfl⟩ (ih h.2)

theorem Run.of_moves {ms : List (S × L × S)} (h : Run (moves step) s ms s') :
    Run step s (ms.map fun m => m.2.1) s' := by
  induction h with
  | nil s => exact .nil s
  | cons hst _ ih => exact .cons hst.2.1 ih

variable {I : S → Prop}

/-- **Invariants.** -/
theorem Run.inv (hstep : ∀ s l s', I s → step s l s' → I s') (h : Run step s ls s') (h0 : I s) : I s' := by
  induction h with
  | nil s => exact h0
  | cons hst _ ih => exact ih (hstep _ _ _ h0 hst)

/-- **Simulation** by a function of the labels. -/
theorem Run.simulates {T : Type*} {R : S → T → Prop} {f : T → L → T}
    (hstep : ∀ s l s' t, R s t → step s l s' → R s' (f t l))
    (h : Run step s ls s') {t : T} (h0 : R s t) : R s' (ls.foldl f t) := by
  induction h generalizing t with
  | nil s => exact h0
  | cons hst _ ih => exact ih (hstep _ _ _ _ h0 hst)

/-- **Every move of a run**, from a state where the invariant holds. -/
theorem Run.each {P : L → Prop} (hstep : ∀ s l s', I s → step s l s' → I s' ∧ P l)
    (h : Run step s ls s') (h0 : I s) : ∀ l ∈ ls, P l := by
  induction h with
  | nil s => intro l hl; cases hl
  | cons hst _ ih =>
    obtain ⟨hI, hP⟩ := hstep _ _ _ h0 hst
    intro l hl
    rcases mem_cons.1 hl with rfl | hl
    · exact hP
    · exact ih hI l hl

/-- **One move of a run**, with the runs before and after it. -/
theorem Run.split {as bs : List L} {l : L} (h : Run step s ls s') (hls : ls = as ++ l :: bs) :
    ∃ a b, Run step s as a ∧ step a l b ∧ Run step b bs s' := by
  induction h generalizing as with
  | nil s => simp at hls
  | @cons s s1 s2 l' ls hst hr ih =>
    cases as with
    | nil =>
      obtain ⟨rfl, rfl⟩ := cons.inj hls
      exact ⟨s, s1, .nil s, hst, hr⟩
    | cons l'' as =>
      obtain ⟨rfl, hls'⟩ := cons.inj hls
      obtain ⟨a, b, hbefore, hmove, hafter⟩ := ih hls'
      exact ⟨a, b, .cons hst hbefore, hmove, hafter⟩

variable {p : L → Bool}

/-- **Kept until taken.** What only a label of kind `p` takes away is there at the end, or
such a label was seen. -/
theorem Run.kept_until {K : S → Prop} (hstep : ∀ s l s', step s l s' → K s → p l = true ∨ K s')
    (h : Run step s ls s') (h0 : K s) : (∃ l ∈ ls, p l = true) ∨ K s' := by
  induction h with
  | nil s => exact .inr h0
  | cons hst _ ih =>
    rcases hstep _ _ _ hst h0 with hp | hK
    · exact .inl ⟨_, mem_cons_self, hp⟩
    rcases ih hK with ⟨l, hl, hp⟩ | hK'
    · exact .inl ⟨l, mem_cons_of_mem _ hl, hp⟩
    · exact .inr hK'

/-- **Where it changed.** What holds at the end and not at the start was brought about by one of the moves. -/
theorem Run.exists_change {I P : S → Prop} {ms : List (S × L × S)} (hI : ∀ s l s', I s → step s l s' → I s')
    (h : Run (moves step) s ms s') (h0 : I s) (hs : ¬ P s) (hs' : P s') :
    ∃ m ∈ ms, I m.1 ∧ step m.1 m.2.1 m.2.2 ∧ ¬ P m.1 ∧ P m.2.2 := by
  induction h with
  | nil s => exact absurd hs' hs
  | @cons a b c m ms hst _ ih =>
    obtain ⟨rfl, hmove, rfl⟩ := hst
    by_cases hb : P m.2.2
    · exact ⟨m, mem_cons_self, h0, hmove, hs, hb⟩
    · obtain ⟨m', hm', hfacts⟩ := ih (hI _ _ _ h0 hmove) hb hs'
      exact ⟨m', mem_cons_of_mem _ hm', hfacts⟩

/-- **A countdown.** Every label of kind `p` brings `D 0` closer, and no other label sets it back. -/
theorem Run.countdown {D : ℕ → S → Prop} (hstep : ∀ s l s' n, D n s → step s l s' → D (n - (p l).toNat) s')
    (h : Run step s ls s') {n : ℕ} (h0 : D n s) : D (n - ls.countP p) s' := by
  induction h generalizing n with
  | nil s => exact h0
  | @cons s s1 s2 l ls hst _ ih =>
    have hrest := ih (hstep _ _ _ _ h0 hst)
    rw [Nat.sub_sub] at hrest
    rw [countP_cons, Nat.add_comm]
    cases hp : p l with
    | false => simpa [hp] using hrest
    | true => simpa [hp] using hrest

theorem Run.countP_eq_zero {I A : S → Prop} (hI : ∀ s l s', I s → step s l s' → I s')
    (hp : ∀ s l s', I s → step s l s' → p l = true → A s)
    (hstay : ∀ s l s', I s → step s l s' → ¬ A s → ¬ A s')
    (h : Run step s ls s') (h0 : I s) (hs : ¬ A s) : ls.countP p = 0 := by
  induction h with
  | nil s => rfl
  | cons hst _ ih =>
    rw [countP_cons, ih (hI _ _ _ h0 hst) (hstay _ _ _ h0 hst hs)]
    split
    · exact absurd (hp _ _ _ h0 hst ‹_›) hs
    · rfl

/-- **At most once.** -/
theorem Run.countP_le_one {I A : S → Prop} (hI : ∀ s l s', I s → step s l s' → I s')
    (hp : ∀ s l s', I s → step s l s' → p l = true → A s ∧ ¬ A s')
    (hstay : ∀ s l s', I s → step s l s' → ¬ A s → ¬ A s')
    (h : Run step s ls s') (h0 : I s) : ls.countP p ≤ 1 := by
  induction h with
  | nil s => exact Nat.zero_le _
  | cons hst hr ih =>
    have hI' := hI _ _ _ h0 hst
    rw [countP_cons]
    split
    · -- the emitting move disarms, so the rest of the run emits none
      have hrest := countP_eq_zero hI (fun s l s' hi h h' => (hp s l s' hi h h').1) hstay hr hI' (hp _ _ _ h0 hst ‹_›).2
      omega
    · exact ih hI'

/-- **A budget.** A state can afford `f s` labels of kind `p`, and every move pays for its label. -/
theorem Run.countP_le_budget (f : S → ℕ) (hI : ∀ s l s', I s → step s l s' → I s')
    (hf : ∀ s l s', I s → step s l s' → f s' + (p l).toNat ≤ f s)
    (h : Run step s ls s') (h0 : I s) : ls.countP p + f s' ≤ f s := by
  induction h with
  | nil s => simp
  | @cons s s1 s2 l ls hst _ ih =>
    have hrest := ih (hI _ _ _ h0 hst)
    have hpay := hf _ _ _ h0 hst
    rw [countP_cons]
    cases hp : p l with
    | false => simp only [hp, Bool.toNat_false] at hpay; simp only [Bool.false_eq_true, if_false]; omega
    | true => simp only [hp, Bool.toNat_true] at hpay; simp only [if_true]; omega

/-- **A balance** that every move changes by an amount of its label. -/
theorem Run.sum_map {G : Type*} [AddMonoid G] (b : S → G) (f : L → G)
    (hstep : ∀ s l s', I s → step s l s' → I s' ∧ b s' = b s + f l)
    (h : Run step s ls s') (h0 : I s) : b s' = b s + (ls.map f).sum := by
  induction h with
  | nil s => simp
  | cons hst _ ih =>
    obtain ⟨hI, hb⟩ := hstep _ _ _ h0 hst
    rw [ih hI, hb, map_cons, sum_cons, add_assoc]

/-- **A budget of amounts.** -/
theorem Run.sum_map_le {G : Type*} [AddCommMonoid G] [PartialOrder G] [IsOrderedAddMonoid G]
    (b : S → G) (f : L → G) (hstep : ∀ s l s', I s → step s l s' → I s' ∧ b s' + f l ≤ b s)
    (h : Run step s ls s') (h0 : I s) : b s' + (ls.map f).sum ≤ b s := by
  induction h with
  | nil s => simp
  | @cons s s1 s2 l ls hst _ ih =>
    obtain ⟨hI, hb⟩ := hstep _ _ _ h0 hst
    calc b s2 + ((l :: ls).map f).sum = (b s2 + (ls.map f).sum) + f l := by
          rw [map_cons, sum_cons, add_comm (f l), add_assoc]
      _ ≤ b s1 + f l := add_le_add_left (ih hI) _
      _ ≤ b s := hb

/-- **No value twice.** A move emits only a value that is fresh, uses it up by that, and makes no
other value fresh again. -/
theorem Run.nodup_filterMap {α : Type*} {g : L → Option α} {F : S → α → Prop} (hI : ∀ s l s', I s → step s l s' → I s')
    (hemit : ∀ s l s' a, I s → step s l s' → g l = some a → F s a ∧ ¬ F s' a)
    (hshrink : ∀ s l s' a, I s → step s l s' → F s' a → F s a)
    (h : Run step s ls s') (h0 : I s) : (ls.filterMap g).Nodup ∧ ∀ a ∈ ls.filterMap g, F s a := by
  induction h with
  | nil s => simp
  | @cons s s1 s2 l ls hst _ ih =>
    obtain ⟨hnodup, hfresh⟩ := ih (hI _ _ _ h0 hst)
    cases hg : g l with
    | none =>
      rw [filterMap_cons_none hg]
      exact ⟨hnodup, fun a ha => hshrink _ _ _ a h0 hst (hfresh a ha)⟩
    | some a =>
      obtain ⟨hF, hused⟩ := hemit _ _ _ a h0 hst hg
      rw [filterMap_cons_some hg]
      refine ⟨nodup_cons.2 ⟨fun ha => hused (hfresh a ha), hnodup⟩, ?_⟩
      intro b hb
      rcases mem_cons.1 hb with rfl | hb
      · exact hF
      · exact hshrink _ _ _ b h0 hst (hfresh b hb)

/-- **Never after.** -/
theorem Run.none_after {K : S → Prop} {p q : L → Bool} (hclose : ∀ s l s', step s l s' → p l = true → K s')
    (hstay : ∀ s l s', step s l s' → K s → K s')
    (hq : ∀ s l s', step s l s' → q l = true → ¬ K s)
    (h : Run step s ls s') {as bs : List L} {l : L} (hls : ls = as ++ l :: bs) (hl : p l = true) :
    ∀ m ∈ bs, q m = false := by
  obtain ⟨a, b, -, hmove, hafter⟩ := h.split hls
  -- once closed, the whole rest of the run is free of `q`
  apply each (P := fun m => q m = false) (fun s l s' hc hst => ?_) hafter (hclose _ _ _ hmove hl)
  refine ⟨hstay _ _ _ hst hc, ?_⟩
  cases hqm : q l with
  | false => rfl
  | true => exact absurd hc (hq _ _ _ hst hqm)

end Trace
