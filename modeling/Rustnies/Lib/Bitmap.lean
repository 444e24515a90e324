import Mathlib.Logic.Basic

/-! # Bitmaps

A word that stands for a set: bit `i` says whether the thing at place `i` is in it.
Sliding a bitmap renumbers the places, and marking a place puts it in.
-/

namespace Bitmap

variable {w : Nat}

/-- Bit `i` says whether place `i` is in the set. -/
def Covers (bits : BitVec w) (member : Nat → Prop) : Prop :=
  ∀ i < w, bits.getLsbD i = true ↔ member i

theorem Covers.zero {member : Nat → Prop} (none : ∀ i < w, ¬ member i) :
    Covers (0#w) member := by
  intro i inside
  simp [none i inside]

theorem Covers.congr {bits : BitVec w} {member member' : Nat → Prop} (covers : Covers bits member)
    (same : ∀ i < w, member i ↔ member' i) : Covers bits member' :=
  fun i inside => (covers i inside).trans (same i inside)

theorem Covers.slide {bits : BitVec w} {member : Nat → Prop}
    (covers : Covers bits member) (d : Nat) :
    Covers (bits <<< d) fun i => d ≤ i ∧ member (i - d) := by
  intro i inside
  have earlier := covers (i - d) (by omega)
  simp only [BitVec.getLsbD_shiftLeft, inside, decide_true, Bool.true_and, Bool.and_eq_true,
    Bool.not_eq_true', decide_eq_false_iff_not, Nat.not_lt, earlier]

theorem Covers.mark {bits : BitVec w} {member : Nat → Prop} (covers : Covers bits member)
    (place : Nat) :
    Covers (bits ||| BitVec.twoPow w place) fun i => i = place ∨ member i := by
  intro i inside
  have bit : (BitVec.twoPow w place).getLsbD i = true ↔ i = place := by
    simp only [BitVec.getLsbD_twoPow, Bool.and_eq_true, decide_eq_true_eq]
    omega
  simp only [BitVec.getLsbD_or, Bool.or_eq_true, bit, covers i inside, or_comm]

theorem and_twoPow_ne_zero (bits : BitVec w) {place : Nat} (inside : place < w) :
    bits &&& BitVec.twoPow w place ≠ 0#w ↔ bits.getLsbD place = true := by
  have set : BitVec.twoPow w place ≠ 0#w := fun zero => by
    have bit := congrArg (·.getLsbD place) zero
    simp [inside] at bit
  rw [BitVec.and_twoPow]
  cases bits.getLsbD place with
  | true => simpa using set
  | false => simp

end Bitmap
