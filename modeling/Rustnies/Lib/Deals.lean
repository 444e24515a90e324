import Mathlib.Data.List.Infix

/-! # Dealing from one queue to many

A log of tagged items says who was given what, in order: each item goes to one receiver,
and what a receiver was dealt is the part of the log that bears its name.
-/

namespace Deals

variable {κ α : Type} [DecidableEq κ]

/-- What was dealt to one receiver, in order. -/
def dealt (log : List (κ × α)) (k : κ) : List α := (log.filter fun e => e.1 = k).map Prod.snd

@[simp]
theorem dealt_nil (k : κ) : dealt ([] : List (κ × α)) k = [] := rfl

@[simp]
theorem dealt_append (left right : List (κ × α)) (k : κ) :
    dealt (left ++ right) k = dealt left k ++ dealt right k := by
  simp only [dealt, List.filter_append, List.map_append]

theorem dealt_tagged (k : κ) (xs : List α) : dealt (xs.map fun x => (k, x)) k = xs := by
  induction xs with
  | nil => rfl
  | cons x xs ih =>
      simp only [dealt, List.map_cons, List.filter_cons, decide_true, if_true] at ih ⊢
      rw [ih]

theorem dealt_tagged_ne {j k : κ} (other : j ≠ k) (xs : List α) :
    dealt (xs.map fun x => (j, x)) k = [] := by
  induction xs with
  | nil => rfl
  | cons x xs ih =>
      simp only [dealt, List.map_cons, List.filter_cons, decide_eq_false other,
        Bool.false_eq_true, if_false]
      exact ih

/-- A receiver that the log does not name got nothing. -/
theorem dealt_eq_nil {log : List (κ × α)} {k : κ} (unnamed : ∀ e ∈ log, e.1 ≠ k) :
    dealt log k = [] := by
  simp only [dealt, List.map_eq_nil_iff, List.filter_eq_nil_iff, decide_eq_true_eq]
  exact unnamed

end Deals
