import Mathlib.Algebra.BigOperators.Fin
import Mathlib.Algebra.Field.Basic
import Mathlib.Algebra.BigOperators.Ring.Finset
import Mathlib.Data.List.FinRange
import Mathlib.Logic.Equiv.Basic
import Mathlib.Tactic.Ring

/-! # Gauss–Jordan elimination over a field

A square system with its right-hand side as the last column is reduced column by
column: take the first row at or below the diagonal with a nonzero entry, swap it
up, normalise it, clear the column. Row operations keep every vector that the
rows annihilate, and the columns already treated are unit columns; at the end the
last column is the only solution, and a column without a pivot exhibits a nonzero
vector in the kernel.
-/

namespace Gauss

variable {F : Type} [Field F] {n : ℕ}

/-- `n` rows of `n` coefficients and a right-hand side. -/
abbrev Augmented (F : Type) (n : ℕ) := Fin n → Fin (n + 1) → F

/-- The first row from `col` on with a nonzero entry in column `col`. -/
def pivot [DecidableEq F] (a : Augmented F n) (col : Fin n) : Option (Fin n) :=
  (List.finRange n).find? fun r => decide (col ≤ r ∧ a r col.castSucc ≠ 0)

def swapRows (a : Augmented F n) (r s : Fin n) : Augmented F n := fun i => a (Equiv.swap r s i)

/-- Multiply row `col` by `c`, from column `col` on. -/
def scaleRow (a : Augmented F n) (col : Fin n) (c : F) : Augmented F n := fun r j =>
  if r = col ∧ col.castSucc ≤ j then a r j * c else a r j

/-- Subtract from every other row its multiple of row `col`, from column `col` on. -/
def clearColumn (a : Augmented F n) (col : Fin n) : Augmented F n := fun r j =>
  if r ≠ col ∧ col.castSucc ≤ j then a r j - a r col.castSucc * a col j else a r j

def step [DecidableEq F] (a : Augmented F n) (col : Fin n) : Option (Augmented F n) :=
  (pivot a col).map fun piv =>
    clearColumn (scaleRow (swapRows a col piv) col (swapRows a col piv col col.castSucc)⁻¹) col

/-- Reduce all columns and read off the last one. -/
def solve [DecidableEq F] (a : Augmented F n) : Option (Fin n → F) :=
  ((List.finRange n).foldlM step a).map fun a r => a r (Fin.last n)

/-! ## What the rows annihilate -/

/-- Every row annihilates `y`. -/
def Null (a : Augmented F n) (y : Fin (n + 1) → F) : Prop := ∀ r, ∑ j, a r j * y j = 0

/-- `x` solves the system. -/
def Solves (a : Augmented F n) (x : Fin n → F) : Prop :=
  ∀ r, ∑ j, a r j.castSucc * x j = a r (Fin.last n)

/-- `x` is in the kernel of the coefficients. -/
def Kills (a : Augmented F n) (x : Fin n → F) : Prop := ∀ r, ∑ j, a r j.castSucc * x j = 0

theorem solves_iff_null {a : Augmented F n} {x : Fin n → F} :
    Solves a x ↔ Null a (Fin.snoc x (-1)) := by
  simp only [Solves, Null, Fin.sum_univ_castSucc, Fin.snoc_castSucc, Fin.snoc_last, mul_neg,
    mul_one, add_neg_eq_zero]

theorem kills_iff_null {a : Augmented F n} {x : Fin n → F} :
    Kills a x ↔ Null a (Fin.snoc x 0) := by
  simp only [Kills, Null, Fin.sum_univ_castSucc, Fin.snoc_castSucc, Fin.snoc_last, mul_zero,
    add_zero]

/-- The columns before `c` are unit columns. -/
def UnitBefore (c : ℕ) (a : Augmented F n) : Prop :=
  ∀ (j : Fin n) (r : Fin n), j.val < c → a r j.castSucc = if r = j then 1 else 0

theorem swapRows_null {a : Augmented F n} {r s : Fin n} {y : Fin (n + 1) → F} :
    Null (swapRows a r s) y ↔ Null a y := by
  constructor
  · intro null i
    have := null (Equiv.swap r s i)
    simpa only [swapRows, Equiv.swap_apply_self] using this
  · intro null i
    exact null _

/-- In a row whose entries left of the diagonal vanish, scaling from the diagonal
    on scales the whole row. -/
theorem scaleRow_null {a : Augmented F n} {col : Fin n} {c : F} (nonzero : c ≠ 0)
    (zeros : ∀ j : Fin (n + 1), j < col.castSucc → a col j = 0) {y : Fin (n + 1) → F} :
    Null (scaleRow a col c) y ↔ Null a y := by
  have scaled : ∀ r, ∑ j, scaleRow a col c r j * y j =
      if r = col then c * ∑ j, a r j * y j else ∑ j, a r j * y j := by
    intro r
    by_cases same : r = col
    · subst same
      rw [if_pos rfl, Finset.mul_sum]
      refine Finset.sum_congr rfl fun j _ => ?_
      by_cases right : r.castSucc ≤ j
      · simp only [scaleRow, right, and_self, if_true]
        ring
      · simp only [scaleRow, right, and_false, if_false, zeros j (not_le.mp right), zero_mul,
          mul_zero]
    · simp only [scaleRow, same, false_and, if_false]
  unfold Null
  refine forall_congr' fun r => ?_
  rw [scaled]
  by_cases same : r = col
  · rw [if_pos same, mul_eq_zero, or_iff_right nonzero]
  · rw [if_neg same]

theorem clearColumn_null {a : Augmented F n} {col : Fin n}
    (zeros : ∀ j : Fin (n + 1), j < col.castSucc → a col j = 0) {y : Fin (n + 1) → F} :
    Null (clearColumn a col) y ↔ Null a y := by
  have cleared : ∀ r, ∑ j, clearColumn a col r j * y j =
      ∑ j, a r j * y j - if r = col then 0 else a r col.castSucc * ∑ j, a col j * y j := by
    intro r
    by_cases same : r = col
    · simp only [clearColumn, same, ne_eq, not_true, false_and, if_false, if_true, sub_zero]
    · rw [if_neg same, Finset.mul_sum, ← Finset.sum_sub_distrib]
      refine Finset.sum_congr rfl fun j _ => ?_
      by_cases right : col.castSucc ≤ j
      · simp only [clearColumn, ne_eq, same, not_false_eq_true, right, and_self, if_true]
        ring
      · simp only [clearColumn, right, and_false, if_false, zeros j (not_le.mp right), zero_mul,
          mul_zero, sub_zero]
  constructor
  · intro null
    have pivotRow : ∑ j, a col j * y j = 0 := by
      have := null col
      rwa [cleared, if_pos rfl, sub_zero] at this
    intro r
    have := null r
    rwa [cleared, pivotRow, mul_zero, ite_self, sub_zero] at this
  · intro null r
    rw [cleared, null r, null col, mul_zero, ite_self, sub_zero]

/-! ## One column -/

variable [DecidableEq F] {a b : Augmented F n} {col : Fin n}

theorem pivot_eq_some {piv : Fin n} (found : pivot a col = some piv) :
    col ≤ piv ∧ a piv col.castSucc ≠ 0 := by
  have := List.find?_some found
  simpa only [decide_eq_true_eq] using this

theorem pivot_eq_none (missing : pivot a col = none) :
    ∀ r, col ≤ r → a r col.castSucc = 0 := by
  intro r below
  have refused := List.find?_eq_none.mp missing r (List.mem_finRange r)
  simp only [decide_eq_true_eq, not_and, not_not] at refused
  exact refused below


theorem step_spec (unit : UnitBefore col.val a) (stepped : step a col = some b) :
    UnitBefore (col.val + 1) b ∧ ∀ y, Null b y ↔ Null a y := by
  obtain ⟨piv, found, rfl⟩ := Option.map_eq_some_iff.mp stepped
  obtain ⟨below, nonzero⟩ := pivot_eq_some found
  -- swapping rows from `col` on leaves the unit columns alone
  have unit' : UnitBefore col.val (swapRows a col piv) := by
    intro j r left
    have notCol : j ≠ col := Fin.ne_of_lt left
    have notPiv : j ≠ piv := Fin.ne_of_lt (lt_of_lt_of_le left below)
    rw [swapRows, unit j _ left]
    have same : (Equiv.swap col piv r = j) ↔ (r = j) := by
      rw [← Equiv.swap_apply_of_ne_of_ne notCol notPiv, Equiv.apply_eq_iff_eq,
        Equiv.swap_apply_of_ne_of_ne notCol notPiv]
    simp only [same]
  generalize swapped : swapRows a col piv = s at unit'
  have diagonal : s col col.castSucc ≠ 0 := by
    rw [← swapped, swapRows, Equiv.swap_apply_left]
    exact nonzero
  have zeros : ∀ j : Fin (n + 1), j < col.castSucc → s col j = 0 := by
    intro j left
    have small : j.val < n := lt_trans left col.isLt
    have other : col ≠ ⟨j.val, small⟩ := Fin.ne_of_gt left
    have entry := unit' ⟨j.val, small⟩ col left
    rw [if_neg other] at entry
    exact entry
  generalize scaledDef : scaleRow s col (s col col.castSucc)⁻¹ = scaled
  have zeros' : ∀ j : Fin (n + 1), j < col.castSucc → scaled col j = 0 := by
    intro j left
    rw [← scaledDef, scaleRow, if_neg (fun h => absurd h.2 (not_le.mpr left)), zeros j left]
  have one : scaled col col.castSucc = 1 := by
    rw [← scaledDef, scaleRow, if_pos ⟨rfl, le_refl _⟩, mul_inv_cancel₀ diagonal]
  constructor
  · intro j r left
    rcases Nat.lt_succ_iff_lt_or_eq.mp left with before | here
    · have outside : ¬ col.castSucc ≤ j.castSucc := not_le.mpr before
      simp only [clearColumn, outside, and_false, if_false, ← scaledDef, scaleRow]
      exact unit' j r before
    · obtain rfl : j = col := Fin.ext here
      by_cases same : r = j
      · subst same
        simp only [clearColumn, ne_eq, not_true, false_and, if_false, if_true, one]
      · simp only [clearColumn, ne_eq, same, not_false_eq_true, le_refl, and_self, if_true, one,
          mul_one, sub_self, if_false]
  · intro y
    rw [clearColumn_null zeros', ← scaledDef,
      scaleRow_null (inv_ne_zero diagonal) zeros, ← swapped, swapRows_null]

/-- Without a pivot, the column is a combination of the unit columns before it. -/
theorem kernel_of_no_pivot (unit : UnitBefore col.val a) (stuck : step a col = none) :
    ∃ x ≠ 0, Kills a x := by
  have zero := pivot_eq_none (Option.map_eq_none_iff.mp stuck)
  let x : Fin n → F := fun j =>
    if j = col then 1 else if j < col then -a j col.castSucc else 0
  refine ⟨x, fun null => ?_, fun r => ?_⟩
  · have := congrFun null col
    simp [x] at this
  · -- only the columns `col` and `r` contribute to row `r`
    have term : ∀ j, a r j.castSucc * x j =
        (if j = col then a r col.castSucc else 0) +
          (if j = r then (if r < col then -a r col.castSucc else 0) else 0) := by
      intro j
      by_cases here : j = col
      · subst here
        by_cases same : j = r
        · subst same
          simp [x]
        · simp [x, same]
      · by_cases left : j < col
        · rw [unit j r left]
          by_cases same : j = r
          · subst same
            simp [x, here, left]
          · simp [x, here, Ne.symm same, same]
        · by_cases same : j = r
          · subst same
            simp [x, here, left]
          · simp [x, here, left, same]
    simp only [term, Finset.sum_add_distrib, Finset.sum_ite_eq', Finset.mem_univ, if_true]
    by_cases above : r < col
    · rw [if_pos above, add_neg_cancel]
    · rw [if_neg above, add_zero, zero r (not_lt.mp above)]

/-! ## All columns -/

/-- The columns before `c`, treated in order. -/
private theorem run_spec {c : ℕ} (inside : c ≤ n)
    (ran : ((List.finRange n).take c).foldlM step a = some b) :
    UnitBefore c b ∧ ∀ y, Null b y ↔ Null a y := by
  induction c generalizing b with
  | zero =>
      cases ran
      exact ⟨fun j r left => absurd left (Nat.not_lt_zero _), fun y => Iff.rfl⟩
  | succ c ih =>
      have next : (List.finRange n)[c]? = some ⟨c, inside⟩ := by
        rw [List.getElem?_eq_getElem (by rw [List.length_finRange]; exact inside)]
        simp
      rw [List.take_add_one, next, Option.toList_some, List.foldlM_append] at ran
      obtain ⟨mid, before, last⟩ := Option.bind_eq_some_iff.mp ran
      obtain ⟨unit, null⟩ := ih (Nat.le_of_succ_le inside) before
      have stepped : step mid ⟨c, inside⟩ = some b := by
        simpa using last
      have unitHere : UnitBefore (⟨c, inside⟩ : Fin n).val mid := unit
      obtain ⟨unit', null'⟩ := step_spec unitHere stepped
      exact ⟨unit', fun y => (null' y).trans (null y)⟩

/-- A run that stops has met a column without a pivot. -/
private theorem run_stuck {c : ℕ} (inside : c ≤ n)
    (stuck : ((List.finRange n).take c).foldlM step a = none) : ∃ x ≠ 0, Kills a x := by
  induction c with
  | zero => cases stuck
  | succ c ih =>
      have next : (List.finRange n)[c]? = some ⟨c, inside⟩ := by
        rw [List.getElem?_eq_getElem (by rw [List.length_finRange]; exact inside)]
        simp
      rw [List.take_add_one, next, Option.toList_some, List.foldlM_append] at stuck
      cases before : ((List.finRange n).take c).foldlM step a with
      | none => exact ih (Nat.le_of_succ_le inside) before
      | some mid =>
          obtain ⟨unit, null⟩ := run_spec (Nat.le_of_succ_le inside) before
          rw [before] at stuck
          have stuckHere : step mid ⟨c, inside⟩ = none := by
            simpa using stuck
          have unitHere : UnitBefore (⟨c, inside⟩ : Fin n).val mid := unit
          obtain ⟨x, nonzero, kills⟩ := kernel_of_no_pivot unitHere stuckHere
          refine ⟨x, nonzero, kills_iff_null.mpr ?_⟩
          rw [← null]
          exact kills_iff_null.mp kills

private theorem take_all : (List.finRange n).take n = List.finRange n :=
  List.take_of_length_le (by simp)

/-- What elimination returns is the only solution. -/
theorem solves_iff_of_solve {x : Fin n → F} (solved : solve a = some x) (x' : Fin n → F) :
    Solves a x' ↔ x' = x := by
  obtain ⟨b, ran, rfl⟩ := Option.map_eq_some_iff.mp solved
  rw [← take_all] at ran
  obtain ⟨unit, null⟩ := run_spec (le_refl n) ran
  rw [solves_iff_null, ← null, ← solves_iff_null]
  have row : ∀ r, ∑ j, b r j.castSucc * x' j = x' r := by
    intro r
    rw [Finset.sum_eq_single r]
    · rw [unit r r r.isLt, if_pos rfl, one_mul]
    · intro j _ other
      rw [unit j r j.isLt, if_neg (Ne.symm other), zero_mul]
    · intro missing
      exact absurd (Finset.mem_univ r) missing
  simp only [Solves, row, funext_iff]

/-- Elimination fails only on singular coefficients. -/
theorem kernel_of_solve_eq_none (failed : solve a = none) : ∃ x ≠ 0, Kills a x := by
  have stuck := Option.map_eq_none_iff.mp failed
  rw [← take_all] at stuck
  exact run_stuck (le_refl n) stuck

theorem solve_eq_some {x : Fin n → F} (regular : ∀ z, Kills a z → z = 0)
    (solves : Solves a x) :
    solve a = some x := by
  cases solved : solve a with
  | none =>
      obtain ⟨z, nonzero, kills⟩ := kernel_of_solve_eq_none solved
      exact absurd (regular z kills) nonzero
  | some x' => rw [(solves_iff_of_solve solved x).mp solves]

end Gauss
