import NewApi.Trace.Run

/-!
# Calls, deliveries and progress in runs
-/

namespace Trace

open List

inductive CallEvent (C : Type*)
  | started (c : C)
  | ended (c : C)
  deriving DecidableEq

/-- The calls do not overlap, from a moment at which `current` goes on. -/
def Serial {C : Type*} : Option C → List (CallEvent C) → Prop
  | _, [] => True
  | none, .started c :: es => Serial (some c) es
  | some c, .ended c' :: es => c' = c ∧ Serial none es
  | none, .ended _ :: _ => False
  | some _, .started _ :: _ => False

def CallStep {C : Type*} : Option (CallEvent C) → Option C → Option C → Prop
  | none, current, current' => current' = current
  | some (.started c), current, current' => current = none ∧ current' = some c
  | some (.ended c), current, current' => current = some c ∧ current' = none

variable {S L C α : Type*} {step : S → L → S → Prop} {I : S → Prop} {s s' : S} {ls : List L}

/-- **Calls do not overlap** where each state knows the one call that goes on. -/
theorem Run.serial (event : L → Option (CallEvent C)) (current : S → Option C)
    (hstep : ∀ s l s', I s → step s l s' → I s' ∧ CallStep (event l) (current s) (current s'))
    (h : Run step s ls s') (h0 : I s) : Serial (current s) (ls.filterMap event) := by
  induction h with
  | nil s => cases current s <;> trivial
  | @cons a b c l ls hst _ ih =>
    obtain ⟨hI, hcall⟩ := hstep _ _ _ h0 hst
    have hrest := ih hI
    cases hevent : event l with
    | none =>
      rw [hevent] at hcall
      rw [filterMap_cons_none hevent, ← show current b = current a from hcall]
      exact hrest
    | some e =>
      rw [filterMap_cons_some hevent]
      cases e with
      | started call =>
        rw [hevent] at hcall
        obtain ⟨hbefore, hafter⟩ := hcall
        rw [hafter] at hrest
        rw [hbefore]
        exact hrest
      | ended call =>
        rw [hevent] at hcall
        obtain ⟨hbefore, hafter⟩ := hcall
        rw [hafter] at hrest
        rw [hbefore]
        exact ⟨rfl, hrest⟩

/-- **What was emitted** and what is still to come is what there was to come. -/
theorem Run.emits (g : L → Option α) (flow : S → List α)
    (hstep : ∀ s l s', I s → step s l s' → I s' ∧ flow s = (g l).toList ++ flow s')
    (h : Run step s ls s') (h0 : I s) : flow s = ls.filterMap g ++ flow s' := by
  induction h with
  | nil s => rfl
  | @cons a b c l ls hst _ ih =>
    obtain ⟨hI, hflow⟩ := hstep _ _ _ h0 hst
    rw [hflow, ih hI]
    cases hg : g l with
    | none => rw [filterMap_cons_none hg, Option.toList_none, nil_append]
    | some x => rw [filterMap_cons_some hg, Option.toList_some, singleton_append, cons_append]

/-- **What was emitted** is the beginning of what there was to come, where some of it can get lost. -/
theorem Run.emits_prefix (g : L → Option α) (flow : S → List α)
    (hstep : ∀ s l s', I s → step s l s' → I s' ∧ (g l).toList ++ flow s' <+: flow s)
    (h : Run step s ls s') (h0 : I s) : ls.filterMap g ++ flow s' <+: flow s := by
  induction h with
  | nil s => exact List.prefix_rfl
  | @cons a b c l ls hst _ ih =>
    obtain ⟨hI, hflow⟩ := hstep _ _ _ h0 hst
    have hrest := ih hI
    cases hg : g l with
    | none =>
      rw [hg, Option.toList_none, nil_append] at hflow
      rw [filterMap_cons_none hg]
      exact hrest.trans hflow
    | some x =>
      rw [hg, Option.toList_some, singleton_append] at hflow
      rw [filterMap_cons_some hg, cons_append]
      exact ((List.prefix_cons_inj x).2 hrest).trans hflow

/-- **A bound on the length.** Every label brings a state closer to its end, but for those of kind `p`. -/
theorem Run.length_le {p : L → Bool} {c : ℕ} (todo : S → ℕ)
    (hstep : ∀ s l s', I s → step s l s' → I s' ∧ todo s' + 1 ≤ todo s + if p l then c + 1 else 0)
    (h : Run step s ls s') (h0 : I s) : ls.length + todo s' ≤ todo s + (c + 1) * ls.countP p := by
  induction h with
  | nil s => simp
  | @cons a b d l ls hst _ ih =>
    obtain ⟨hI, hless⟩ := hstep _ _ _ h0 hst
    have hrest := ih hI
    rw [length_cons, countP_cons]
    cases hp : p l with
    | false =>
      simp only [hp, Bool.false_eq_true, if_false, Nat.add_zero] at hless ⊢
      omega
    | true =>
      simp only [hp, if_true, Nat.mul_add] at hless ⊢
      omega

end Trace
