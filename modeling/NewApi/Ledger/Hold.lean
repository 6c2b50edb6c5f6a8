import Mathlib.Algebra.BigOperators.Group.List.Basic
import Mathlib.Tactic.Abel

/-!
# A hold against a balance

An estimate is taken from a balance, raised while the work goes on, and at the end settled against the actual cost or
given back. The holder keeps what was really `held` and the amount it `recorded` as held, from which the settlement
computes its difference. Their difference is the `drift`.

* `total_take`, `drift_take`: a take moves money between the balance and the hold, and a recorded one keeps the drift.
* `settle_charge`: settling for `a` charges `a` plus the drift.
* `refund_balance`: giving back what is held charges nothing, whatever the drift.
* `sum_map_set`: where several holders have parts of an amount, their sum follows the one that changes.
-/

namespace Ledger

variable {G : Type*} [AddCommGroup G]

structure Hold (G : Type*) where
  (balance held recorded : G)

/-- A take of `x` from the balance that is recorded as `r`. -/
structure Take (G : Type*) where
  (taken recorded : G)

def Hold.drift (h : Hold G) : G := h.held - h.recorded

def Hold.total (h : Hold G) : G := h.balance + h.held

def Hold.take (h : Hold G) (t : Take G) : Hold G := ⟨h.balance - t.taken, h.held + t.taken, h.recorded + t.recorded⟩

def Hold.settle (h : Hold G) (a : G) : Hold G := ⟨h.balance - (a - h.recorded), 0, 0⟩

def Hold.refund (h : Hold G) : Hold G := ⟨h.balance + h.held, 0, 0⟩

@[simp] theorem Hold.total_take (h : Hold G) (t : Take G) : (h.take t).total = h.total := by
  simp only [Hold.total, Hold.take]; abel

@[simp] theorem Hold.take_zero (h : Hold G) : h.take ⟨0, 0⟩ = h := by simp [Hold.take]

theorem Hold.drift_take (h : Hold G) {t : Take G} (ht : t.taken = t.recorded) : (h.take t).drift = h.drift := by
  simp only [Hold.drift, Hold.take, ht]; abel

/-- **A settlement charges the actual cost plus the drift.** -/
theorem Hold.settle_charge (h : Hold G) (a : G) : h.total - (h.settle a).balance = a + h.drift := by
  simp only [Hold.total, Hold.settle, Hold.drift]; abel

/-- **A refund restores the balance.** -/
theorem Hold.refund_balance (h : Hold G) : h.refund.balance = h.total := rfl

theorem sum_map_set {α : Type*} (f : α → G) {l : List α} {i : ℕ} {a : α} (h : l[i]? = some a) (b : α) :
    ((l.set i b).map f).sum = (l.map f).sum + (f b - f a) := by
  obtain ⟨hi, rfl⟩ := List.getElem?_eq_some_iff.1 h
  rw [List.map_set, List.sum_set', dif_pos (by rwa [List.length_map]), List.getElem_map]
  abel

end Ledger
