import Mathlib.Data.Set.Basic
import Mathlib.Order.Basic

/-! # Subnets

Addresses of `w` bits, read from the most significant bit on. A prefix of `p` bits of an
address stands for the set of addresses that share them; a netmask is that many ones and
then zeros.
-/

namespace Subnet

variable {w p : Nat} {a b m x : BitVec w}

/-- The addresses that share the first `p` bits of `a`. -/
def covers (a : BitVec w) (p : Nat) : Set (BitVec w) := {x | ∀ i < p, x.getMsbD i = a.getMsbD i}

/-- `p` ones, then zeros. -/
def mask (w p : Nat) : BitVec w := BitVec.allOnes w <<< (w - p)

theorem mem_covers_self (a : BitVec w) (p : Nat) : a ∈ covers a p := fun _ _ => rfl

theorem covers_eq_iff : covers b p = covers a p ↔ ∀ i < p, b.getMsbD i = a.getMsbD i := by
  constructor
  · intro same
    have inside : b ∈ covers a p := same ▸ mem_covers_self b p
    exact inside
  · intro shared
    ext x
    constructor
    · intro inside i before
      rw [inside i before, shared i before]
    · intro inside i before
      rw [inside i before, shared i before]

theorem getMsbD_mask (inside : p ≤ w) (i : Nat) : (mask w p).getMsbD i = decide (i < p) := by
  rw [mask, BitVec.getMsbD_shiftLeft, BitVec.getMsbD_allOnes]
  congr 1
  apply propext
  omega

/-- A subnet is what its mask tells apart from nothing. -/
theorem covers_eq_mask (inside : p ≤ w) : covers a p = {x | x &&& mask w p = a &&& mask w p} := by
  ext x
  constructor
  · intro shared
    apply BitVec.eq_of_getMsbD_eq
    intro i _
    rw [BitVec.getMsbD_and, BitVec.getMsbD_and, getMsbD_mask inside]
    by_cases before : i < p
    · rw [shared i before]
    · simp [before]
  · intro same i before
    have bit := congrArg (fun y => y.getMsbD i) same
    simpa [getMsbD_mask inside, before] using bit

/-! ## Contiguous masks -/

/-- Ones, then zeros. -/
def Contiguous (m : BitVec w) : Prop := ∃ p ≤ w, m = mask w p

theorem mask_injective {q : Nat} (inside : p ≤ w) (inside' : q ≤ w)
    (same : mask w p = mask w q) : p = q := by
  by_contra apart
  have bit := congrArg (fun y => y.getMsbD (min p q)) same
  simp only [getMsbD_mask inside, getMsbD_mask inside', decide_eq_decide] at bit
  omega

theorem mask_zero : mask w 0 = 0#w := by
  rw [mask, Nat.sub_zero]
  exact BitVec.shiftLeft_eq_zero (Nat.le_refl w)

/-- A mask that is not zero has as many trailing zeros as it lacks ones. -/
theorem ctz_mask (positive : 0 < p) (inside : p ≤ w) : (mask w p).ctz.toNat = w - p := by
  have bits : ∀ i < w, (mask w p).getLsbD i = decide (w - p ≤ i) := by
    intro i small
    rw [mask, BitVec.getLsbD_shiftLeft, BitVec.getLsbD_allOnes]
    by_cases low : i < w - p
    · simp [low, Nat.not_le.mpr low]
    · simp only [low, decide_false, Bool.not_false, Bool.and_true, small, decide_true,
        Bool.true_and]
      rw [decide_eq_true (show i - (w - p) < w by omega), decide_eq_true (Nat.le_of_not_lt low)]
  have nonzero : mask w p ≠ 0#w := by
    intro zero
    have top := bits (w - p) (by omega)
    rw [zero, BitVec.getLsbD_zero, decide_eq_true (Nat.le_refl _)] at top
    exact Bool.false_ne_true top
  have first := BitVec.getLsbD_true_ctz_of_ne_zero nonzero
  have small : (mask w p).ctz.toNat < w := BitVec.lt_of_getLsbD first
  have above : w - p ≤ (mask w p).ctz.toNat := by
    rw [bits _ small] at first
    exact of_decide_eq_true first
  by_contra apart
  have low := BitVec.getLsbD_false_of_lt_ctz (x := mask w p) (i := w - p) (by omega)
  rw [bits _ (by omega), decide_eq_true (Nat.le_refl _)] at low
  exact Bool.false_ne_true low.symm

end Subnet
