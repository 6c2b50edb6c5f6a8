import Mathlib.Algebra.Order.Group.Int
import Mathlib.Algebra.Order.Group.Defs
import Mathlib.Data.List.Count

/-!
# Sliding windows

A log of moments, the newest first. A window of length `d` that ends at `t` holds the moments that are less than `d`
away from `t`. A limiter lets something happen while fewer than `k` moments are in the window.

* `Window.full_iff`: only the `k`-th moment of a log has to be looked at.
* `Window.Keeps`: at most `k` moments that can stand for the log. Both decide the same (`Keeps.full_eq`), and
  recording, forgetting and waiting keep this (`Keeps.push`, `Keeps.clear`, `Keeps.later`).
-/

namespace Trace.Window

open List

variable {T : Type*} [AddCommGroup T] [LinearOrder T] {d t now : T} {k : ℕ} {l log : List T}

/-- The number of moments in the window of length `d` that ends at `t`. -/
def recent (d t : T) (log : List T) : ℕ := log.countP fun e => decide (t - e < d)

/-- The `k`-th moment of the log is in the window. -/
def full (k : ℕ) (d t : T) (log : List T) : Bool := (log.drop (k - 1)).head?.any fun e => decide (t - e < d)

theorem recent_eq_zero (h : ∀ e ∈ log, d ≤ t - e) : recent d t log = 0 := by
  unfold recent
  rw [countP_eq_zero]
  intro e he
  simpa using h e he

theorem full_of_length_lt (h : l.length < k) : full k d t l = false := by
  simp [full, drop_eq_nil_of_le (show l.length ≤ k - 1 by omega)]

theorem full_of_length_eq (h : l.length = k) {oldest : T} (hlast : l.getLast? = some oldest) :
    full k d t l = decide (t - oldest < d) := by
  rw [full, head?_drop, ← h, ← getLast?_eq_getElem?, hlast, Option.any_some]

variable [IsOrderedAddMonoid T]

theorem full_iff (hk : 1 ≤ k) (hsorted : log.Pairwise (· ≥ ·)) : full k d t log = true ↔ k ≤ recent d t log := by
  have hsplit : recent d t log = recent d t (log.take (k - 1)) + recent d t (log.drop (k - 1)) := by
    unfold recent
    rw [← countP_append, take_append_drop]
  have htake : recent d t (log.take (k - 1)) ≤ k - 1 := by
    have hlength : (log.take (k - 1)).length ≤ k - 1 := by
      rw [length_take]
      exact Nat.min_le_left _ _
    exact (countP_le_length).trans hlength
  unfold full
  cases hdrop : log.drop (k - 1) with
  | nil =>
    rw [hdrop] at hsplit
    have hnone : recent d t ([] : List T) = 0 := rfl
    simp only [head?_nil, Option.any_none, Bool.false_eq_true, false_iff, not_le]
    omega
  | cons e rest =>
    simp only [head?_cons, Option.any_some, decide_eq_true_eq]
    -- what comes before `e` is newer, what comes after it is older
    rw [← take_append_drop (k - 1) log, hdrop, pairwise_append] at hsorted
    obtain ⟨-, hrest, hbefore⟩ := hsorted
    rw [pairwise_cons] at hrest
    constructor
    · intro hwithin
      have hall : recent d t (log.take (k - 1)) = (log.take (k - 1)).length := by
        unfold recent
        rw [countP_eq_length]
        intro e' he'
        have hnewer : e ≤ e' := hbefore e' he' e mem_cons_self
        have hlt : t - e' < d := (sub_le_sub_left hnewer t).trans_lt hwithin
        simpa using hlt
      have hlength : (log.take (k - 1)).length = k - 1 := by
        rw [length_take]
        have hlong : (log.drop (k - 1)).length ≠ 0 := by
          rw [hdrop]
          simp
        rw [length_drop] at hlong
        omega
      have hone : 1 ≤ recent d t (log.drop (k - 1)) := by
        rw [hdrop]
        unfold recent
        rw [countP_cons_of_pos (by simpa using hwithin)]
        omega
      omega
    · intro hmany
      by_contra hout
      have hzero : recent d t (log.drop (k - 1)) = 0 := by
        apply recent_eq_zero
        rw [hdrop]
        intro e' he'
        have holder : e' ≤ e := by
          rcases mem_cons.1 he' with rfl | he'
          · exact le_rfl
          · exact hrest.1 e' he'
        exact (not_lt.1 hout).trans (sub_le_sub_left holder t)
      omega

/-- The list `l` can stand for the log from now on. -/
structure Keeps (k : ℕ) (d now : T) (l log : List T) : Prop where
  isPrefix : l <+: log.take k
  lost : ∀ e ∈ (log.take k).drop l.length, d ≤ now - e

namespace Keeps

variable (h : Keeps k d now l log)
include h

omit [IsOrderedAddMonoid T] in
theorem length_le : l.length ≤ k := by
  have hle := h.isPrefix.length_le
  rw [length_take] at hle
  omega

theorem later (hnow : now ≤ t) : Keeps k d t l log := by
  refine ⟨h.isPrefix, ?_⟩
  intro e he
  exact (h.lost e he).trans (sub_le_sub_right hnow e)

/-- **The list decides as the log does.** -/
theorem full_eq (hk : 1 ≤ k) (hnow : now ≤ t) : full k d t l = full k d t log := by
  have hkept := h.later hnow
  obtain ⟨rest, hrest⟩ := h.isPrefix
  have hhead : (log.drop (k - 1)).head? = ((log.take k).drop (k - 1)).head? := by
    rw [head?_drop, head?_drop, getElem?_take_of_lt (by omega)]
  unfold full
  rw [hhead, ← hrest]
  by_cases hshort : l.length ≤ k - 1
  · -- the list is too short, so what the log has at this place is out of the window
    have hnil : l.drop (k - 1) = [] := drop_eq_nil_of_le hshort
    rw [drop_append, hnil, nil_append]
    cases hfirst : (rest.drop (k - 1 - l.length)).head? with
    | none => rfl
    | some e =>
      have hmem : e ∈ (log.take k).drop l.length := by
        rw [← hrest, drop_left]
        exact mem_of_mem_drop (mem_of_mem_head? hfirst)
      have hout := hkept.lost e hmem
      exact (decide_eq_false (not_lt.2 hout)).symm
  · have hdrop : (l ++ rest).drop (k - 1) = l.drop (k - 1) ++ rest := drop_append_of_le_length (by omega)
    have hne : l.drop (k - 1) ≠ [] := by
      intro hnil
      have hlength := congrArg length hnil
      rw [length_drop, length_nil] at hlength
      omega
    obtain ⟨e, older, hcons⟩ := exists_cons_of_ne_nil hne
    rw [hdrop, hcons, cons_append, head?_cons, head?_cons]

theorem push (hk : 1 ≤ k) (hnow : now ≤ t) : Keeps k d t ((t :: l).take k) (t :: log) := by
  obtain ⟨k, rfl⟩ : ∃ k', k = k' + 1 := ⟨k - 1, by omega⟩
  have hkept := h.later hnow
  obtain ⟨rest, hrest⟩ := h.isPrefix
  have htake : log.take k = (l ++ rest).take k := by
    rw [hrest, take_take]
    congr 1
    omega
  rw [take_succ_cons]
  refine ⟨?_, ?_⟩
  · rw [take_succ_cons, htake, List.cons_prefix_cons]
    refine ⟨rfl, ?_⟩
    rw [take_append]
    exact List.prefix_append _ _
  intro e he
  rw [take_succ_cons, length_cons, drop_succ_cons, htake, take_append] at he
  rw [drop_left] at he
  apply hkept.lost
  rw [← hrest, drop_left]
  exact mem_of_mem_take he

theorem clear (hnow : now ≤ t) (hout : ∀ e ∈ l, d ≤ t - e) : Keeps k d t [] log := by
  have hkept := h.later hnow
  obtain ⟨rest, hrest⟩ := h.isPrefix
  refine ⟨List.nil_prefix, ?_⟩
  intro e he
  rw [length_nil, drop_zero, ← hrest] at he
  rcases mem_append.1 he with hold | hlost
  · exact hout e hold
  apply hkept.lost
  rw [← hrest, drop_left]
  exact hlost

end Keeps

omit [IsOrderedAddMonoid T] in
theorem Keeps.nil (k : ℕ) (d now : T) : Keeps k d now [] ([] : List T) := by
  refine ⟨List.nil_prefix, ?_⟩
  intro e he
  simp at he

end Trace.Window
