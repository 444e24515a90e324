import Mathlib.LinearAlgebra.Vandermonde
import Mathlib.LinearAlgebra.Matrix.NonsingularInverse
import Mathlib.Data.Finset.Sort

/-! # Systematic codes from a Vandermonde matrix

A code with `k` message symbols and `m` more is given by `k + m` distinct points:
row `i` of the generator is the row of powers of point `i`, multiplied by a right
inverse of the first `k` rows. Its first `k` rows are then the identity, and a
message on which any `k` rows vanish is zero.
-/

namespace SystematicCode

open Matrix

variable {F : Type} [Field F] {k m : ℕ}

/-- The powers of the points, one row a point. -/
def powers (point : Fin (k + m) → F) : Matrix (Fin (k + m)) (Fin k) F :=
  Matrix.of fun i j => point i ^ (j : ℕ)

/-- The first `k` rows of the powers. -/
def top (point : Fin (k + m) → F) : Matrix (Fin k) (Fin k) F :=
  Matrix.of fun i j => powers point (Fin.castAdd m i) j

/-- Powers times an inverse of the top rows. -/
def generator (point : Fin (k + m) → F) (inverse : Matrix (Fin k) (Fin k) F) :
    Matrix (Fin (k + m)) (Fin k) F :=
  powers point * inverse

variable {point : Fin (k + m) → F}

/-- No nonzero vector is annihilated by the powers of `k` distinct points. -/
theorem powers_regular (distinct : Function.Injective point) {rows : Finset (Fin (k + m))}
    (enough : k ≤ rows.card) {w : Fin k → F}
    (vanish : ∀ i ∈ rows, (powers point *ᵥ w) i = 0) :
    w = 0 := by
  obtain ⟨some_, inside, size⟩ := Finset.exists_subset_card_eq enough
  let pick := some_.orderEmbOfFin size
  refine eq_zero_of_forall_index_sum_pow_mul_eq_zero (f := fun t => point (pick t))
    (distinct.comp pick.injective) fun t => ?_
  exact vanish (pick t) (inside (Finset.orderEmbOfFin_mem some_ size t))

theorem top_regular (distinct : Function.Injective point) {w : Fin k → F}
    (vanish : top point *ᵥ w = 0) : w = 0 := by
  have size : k ≤ (Finset.univ.map (Fin.castAddEmb m : Fin k ↪ Fin (k + m))).card := by
    rw [Finset.card_map, Finset.card_univ, Fintype.card_fin]
  refine powers_regular distinct size fun i inside => ?_
  obtain ⟨t, -, rfl⟩ := Finset.mem_map.mp inside
  exact congrFun vanish t

variable {inverse : Matrix (Fin k) (Fin k) F}

theorem generator_top (inverts : top point * inverse = 1) (i j : Fin k) :
    generator point inverse (Fin.castAdd m i) j = if i = j then 1 else 0 := by
  have entry : generator point inverse (Fin.castAdd m i) j = (top point * inverse) i j := rfl
  rw [entry, inverts, Matrix.one_apply]

/-- Any `k` rows of the generator determine the message. -/
theorem generator_regular (distinct : Function.Injective point)
    (inverts : top point * inverse = 1) {rows : Finset (Fin (k + m))} (enough : k ≤ rows.card)
    {z : Fin k → F} (vanish : ∀ i ∈ rows, (generator point inverse *ᵥ z) i = 0) :
    z = 0 := by
  have zero : inverse *ᵥ z = 0 := by
    refine powers_regular distinct enough fun i inside => ?_
    rw [Matrix.mulVec_mulVec]
    exact vanish i inside
  calc
    z = (top point * inverse) *ᵥ z := by rw [inverts, Matrix.one_mulVec]
    _ = top point *ᵥ (inverse *ᵥ z) := by rw [Matrix.mulVec_mulVec]
    _ = 0 := by rw [zero, Matrix.mulVec_zero]

end SystematicCode
