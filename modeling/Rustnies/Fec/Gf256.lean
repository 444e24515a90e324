import Rustnies.Lib.Gauss
import Mathlib.Algebra.Field.MinimalAxioms
import Mathlib.Data.List.GetD
import Mathlib.Data.List.Iterate
import Mathlib.Data.List.Perm.Subperm
import Mathlib.Dynamics.PeriodicPts.Lemmas
import Mathlib.NumberTheory.Divisors

/-! # GF(256)

`fec/gf256.rs`: multiplication through exponent and logarithm tables for the
polynomial `0x11d` and the generator 2. The table is the orbit of 1 under
doubling, so multiplying by a nonzero byte is iterated doubling; that is additive,
and the bytes form a field with xor as addition.
-/

namespace Rustnies

/-- `POLY & 0xff`. -/
def POLY_LOW : UInt8 := 0x1d

/-- One step of the table loop: double, and reduce if the high bit fell out. -/
def double (x : UInt8) : UInt8 :=
  if x &&& 0x80 ≠ 0 then (x <<< 1) ^^^ POLY_LOW else x <<< 1

namespace Gf256Tables

/-- The first 255 entries of `exp`. -/
def powers : List UInt8 := List.iterate double 1 255

/-- `exp[i]`: entries from 255 on repeat the first 255. -/
def exp (i : Nat) : UInt8 := powers.getD (i % 255) 0

/-- `log[a]`: the step at which the table loop met `a`; `log[0]` stays 0. -/
def log (a : UInt8) : Nat := if a = 0 then 0 else powers.idxOf a

def mul (a b : UInt8) : UInt8 := if a = 0 ∨ b = 0 then 0 else exp (log a + log b)

/-- The code panics on zero; callers check first. -/
def inv (a : UInt8) : UInt8 := if a = 0 then 0 else exp ((255 - log a) &&& 0xff)

/-! ## The tables -/

theorem powers_length : powers.length = 255 := List.length_iterate ..

theorem getElem_powers {i : Nat} (inside : i < powers.length) : powers[i] = double^[i] 1 :=
  List.getElem_iterate ..

theorem double_period : double^[255] 1 = 1 := by
  decide +kernel

/-- Doubling returns to 1 after 255 steps and, 255 being 3 · 5 · 17, not before. -/
theorem minimalPeriod_double : Function.minimalPeriod double 1 = 255 := by
  have divides : Function.minimalPeriod double 1 ∣ 255 :=
    Function.IsPeriodicPt.minimalPeriod_dvd double_period
  have proper : ∀ d ∈ Nat.divisors 255, d ≠ 255 → d ∣ 15 ∨ d ∣ 51 ∨ d ∣ 85 := by
    decide +kernel
  have early : ∀ n, double^[n] 1 ≠ 1 → ¬ Function.minimalPeriod double 1 ∣ n :=
    fun n moved dvd => moved (Function.isPeriodicPt_iff_minimalPeriod_dvd.mpr dvd)
  by_contra short
  rcases proper _ (Nat.mem_divisors.mpr ⟨divides, by decide⟩) short with dvd | dvd | dvd
  · exact early 15 (by decide +kernel) dvd
  · exact early 51 (by decide +kernel) dvd
  · exact early 85 (by decide +kernel) dvd

theorem powers_nodup : powers.Nodup := by
  rw [List.nodup_iff_injective_getElem]
  intro i j same
  simp only [getElem_powers] at same
  have inside : ∀ i : Fin powers.length, i.val ∈ Set.Iio (Function.minimalPeriod double 1) := by
    intro i
    rw [minimalPeriod_double, ← powers_length]
    exact i.isLt
  exact Fin.ext (Function.iterate_injOn_Iio_minimalPeriod (inside i) (inside j) same)

theorem iterate_double_zero (n : Nat) : double^[n] 0 = 0 := Function.iterate_fixed rfl n

theorem zero_notMem_powers : (0 : UInt8) ∉ powers := by
  intro inside
  obtain ⟨i, small, zero⟩ := List.getElem_of_mem inside
  rw [getElem_powers] at zero
  rw [powers_length] at small
  have one : double^[255 - i] (double^[i] 1) = 1 := by
    rw [← Function.iterate_add_apply, Nat.sub_add_cancel (Nat.le_of_lt small), double_period]
  rw [zero, iterate_double_zero] at one
  exact absurd one (by decide)

theorem mem_powers {a : UInt8} (nonzero : a ≠ 0) : a ∈ powers := by
  have distinct : ((0 :: powers).map UInt8.toNat).Nodup :=
    (List.nodup_cons.mpr ⟨zero_notMem_powers, powers_nodup⟩).map fun _ _ => UInt8.toNat_inj.mp
  have bounded : (0 :: powers).map UInt8.toNat ⊆ List.range 256 := by
    intro n inside
    obtain ⟨b, -, rfl⟩ := List.mem_map.mp inside
    exact List.mem_range.mpr b.toNat_lt
  have perm : List.Perm ((0 :: powers).map UInt8.toNat) (List.range 256) :=
    (distinct.subperm bounded).perm_of_length_le (by simp [powers_length])
  have inside := perm.mem_iff.mpr (List.mem_range.mpr a.toNat_lt)
  obtain ⟨b, inside, same⟩ := List.mem_map.mp inside
  rw [UInt8.toNat_inj] at same
  exact (List.mem_cons.mp (same ▸ inside)).resolve_left nonzero

theorem exp_eq (i : Nat) : exp i = double^[i] 1 := by
  have period : ∀ n, double^[255 * n] 1 = 1 := by
    intro n
    rw [Function.iterate_mul]
    exact Function.iterate_fixed double_period n
  have small : i % 255 < 255 := Nat.mod_lt _ (by decide)
  have entry : exp i = double^[i % 255] 1 := by
    rw [exp, List.getD_eq_getElem _ _ (by rw [powers_length]; exact small)]
    exact getElem_powers _
  calc
    exp i = double^[i % 255] 1 := entry
    _ = double^[i % 255] (double^[255 * (i / 255)] 1) := by rw [period]
    _ = double^[i] 1 := by rw [← Function.iterate_add_apply, Nat.mod_add_div]

theorem exp_log {a : UInt8} (nonzero : a ≠ 0) : exp (log a) = a := by
  have inside : powers.idxOf a < powers.length := List.idxOf_lt_length_of_mem (mem_powers nonzero)
  rw [exp, log, if_neg nonzero, Nat.mod_eq_of_lt (powers_length ▸ inside),
    List.getD_eq_getElem _ _ inside, List.getElem_idxOf]

theorem log_lt (a : UInt8) : log a < 255 := by
  unfold log
  split
  · decide
  · rename_i nonzero
    rw [← powers_length]
    exact List.idxOf_lt_length_of_mem (mem_powers nonzero)

theorem exp_ne_zero (i : Nat) : exp i ≠ 0 := by
  have small : i % 255 < powers.length := by
    rw [powers_length]
    exact Nat.mod_lt _ (by decide)
  intro zero
  rw [exp, List.getD_eq_getElem _ _ small] at zero
  exact zero_notMem_powers (zero ▸ List.getElem_mem small)

theorem log_exp (i : Nat) : log (exp i) = i % 255 := by
  have small : i % 255 < powers.length := by
    rw [powers_length]
    exact Nat.mod_lt _ (by decide)
  rw [log, if_neg (exp_ne_zero i), exp, List.getD_eq_getElem _ _ small]
  exact powers_nodup.idxOf_getElem _ small

/-! ## Multiplication is iterated doubling -/

private theorem high_bit (x : UInt8) : x &&& 0x80 = 0 ∨ x &&& 0x80 = 0x80 := by
  have all : ∀ n < 256, UInt8.ofNat n &&& 0x80 = 0 ∨ UInt8.ofNat n &&& 0x80 = 0x80 := by
    decide +kernel
  have := all x.toNat x.toNat_lt
  rwa [UInt8.ofNat_toNat] at this

theorem double_xor (a b : UInt8) : double (a ^^^ b) = double a ^^^ double b := by
  have shift : (a ^^^ b) <<< 1 = (a <<< 1) ^^^ (b <<< 1) := UInt8.shiftLeft_xor
  have high : (a ^^^ b) &&& 0x80 = (a &&& 0x80) ^^^ (b &&& 0x80) := by
    apply UInt8.toBitVec_inj.mp
    ext i
    simp [Bool.and_xor_distrib_right]
  have nonzero : (0x80 : UInt8) ≠ 0 := by decide
  simp only [double, shift, high]
  rcases high_bit a with ha | ha <;> rcases high_bit b with hb | hb
  · rw [ha, hb, UInt8.xor_zero, if_neg (by simp), if_neg (by simp), if_neg (by simp)]
  · rw [ha, hb, UInt8.zero_xor, if_pos nonzero, if_neg (by simp), if_pos nonzero, UInt8.xor_assoc]
  · rw [ha, hb, UInt8.xor_zero, if_pos nonzero, if_pos nonzero, if_neg (by simp), UInt8.xor_assoc,
      UInt8.xor_comm (b <<< 1), ← UInt8.xor_assoc]
  · rw [ha, hb, UInt8.xor_self, if_neg (by simp), if_pos nonzero, if_pos nonzero,
      UInt8.xor_comm (b <<< 1) POLY_LOW, UInt8.xor_assoc, ← UInt8.xor_assoc POLY_LOW POLY_LOW,
      UInt8.xor_self, UInt8.zero_xor]

theorem iterate_double_xor (n : Nat) (a b : UInt8) :
    double^[n] (a ^^^ b) = double^[n] a ^^^ double^[n] b := by
  induction n generalizing a b with
  | zero => rfl
  | succ n ih => simp only [Function.iterate_succ_apply, double_xor, ih]

theorem mul_eq_iterate {a : UInt8} (nonzero : a ≠ 0) (b : UInt8) :
    mul a b = double^[log a] b := by
  by_cases zero : b = 0
  · rw [mul, if_pos (.inr zero), zero, iterate_double_zero]
  · have power : double^[log b] 1 = b := by
      rw [← exp_eq, exp_log zero]
    rw [mul, if_neg (by simp [nonzero, zero]), exp_eq, Function.iterate_add_apply, power]

theorem mul_comm (a b : UInt8) : mul a b = mul b a := by
  simp only [mul, or_comm, Nat.add_comm]

theorem mul_xor (a b c : UInt8) : mul a (b ^^^ c) = mul a b ^^^ mul a c := by
  by_cases zero : a = 0
  · simp [mul, zero]
  · simp only [mul_eq_iterate zero, iterate_double_xor]

theorem mul_exp_exp (i j : Nat) : mul (exp i) (exp j) = exp (i + j) := by
  have nonzero : ¬ (exp i = 0 ∨ exp j = 0) := by simp [exp_ne_zero]
  rw [mul, if_neg nonzero, log_exp, log_exp, exp, exp, Nat.add_mod (i % 255), Nat.mod_mod,
    Nat.mod_mod, ← Nat.add_mod]

theorem mul_assoc (a b c : UInt8) : mul (mul a b) c = mul a (mul b c) := by
  by_cases zero : a = 0 ∨ b = 0 ∨ c = 0
  · rcases zero with rfl | rfl | rfl <;> simp [mul]
  · obtain ⟨ha, hb, hc⟩ : a ≠ 0 ∧ b ≠ 0 ∧ c ≠ 0 := by simpa using zero
    rw [← exp_log ha, ← exp_log hb, ← exp_log hc]
    simp only [mul_exp_exp, Nat.add_assoc]

theorem one_mul (a : UInt8) : mul 1 a = a := by
  by_cases zero : a = 0
  · simp [mul, zero]
  · have one : exp 0 = 1 := by rw [exp_eq, Function.iterate_zero_apply]
    rw [← exp_log zero, ← one, mul_exp_exp, Nat.zero_add]

theorem mul_inv {a : UInt8} (nonzero : a ≠ 0) : mul a (inv a) = 1 := by
  have small := log_lt a
  have mask : (255 - log a) &&& 0xff = (255 - log a) % 256 := Nat.and_two_pow_sub_one_eq_mod _ 8
  have low : (255 - log a) % 256 = 255 - log a := Nat.mod_eq_of_lt (by omega)
  have full : exp 255 = 1 := by rw [exp_eq, double_period]
  calc
    mul a (inv a) = mul (exp (log a)) (exp (255 - log a)) := by
      rw [exp_log nonzero, inv, if_neg nonzero, mask, low]
    _ = exp 255 := by rw [mul_exp_exp, Nat.add_sub_cancel' (Nat.le_of_lt small)]
    _ = 1 := full

end Gf256Tables

/-! ## The field -/

/-- A byte as a field element. -/
@[ext]
structure Gf256 where
  byte : UInt8
  deriving Repr, DecidableEq

namespace Gf256

instance : Zero Gf256 := ⟨⟨0⟩⟩
instance : One Gf256 := ⟨⟨1⟩⟩
instance : Add Gf256 := ⟨fun a b => ⟨a.byte ^^^ b.byte⟩⟩
instance : Neg Gf256 := ⟨fun a => a⟩
instance : Mul Gf256 := ⟨fun a b => ⟨Gf256Tables.mul a.byte b.byte⟩⟩
instance : Inv Gf256 := ⟨fun a => ⟨Gf256Tables.inv a.byte⟩⟩

/-- Xor as addition and subtraction, table multiplication, table inversion. -/
instance : Field Gf256 :=
  Field.ofMinimalAxioms Gf256
    (fun a b c => Gf256.ext (UInt8.xor_assoc a.byte b.byte c.byte))
    (fun a => Gf256.ext UInt8.zero_xor)
    (fun a => Gf256.ext UInt8.xor_self)
    (fun a b c => Gf256.ext (Gf256Tables.mul_assoc a.byte b.byte c.byte))
    (fun a b => Gf256.ext (Gf256Tables.mul_comm a.byte b.byte))
    (fun a => Gf256.ext (Gf256Tables.one_mul a.byte))
    (fun a nonzero => Gf256.ext (Gf256Tables.mul_inv fun zero => nonzero (Gf256.ext zero)))
    (Gf256.ext (by decide))
    (fun a b c => Gf256.ext (Gf256Tables.mul_xor a.byte b.byte c.byte))
    ⟨0, 1, by decide⟩

/-- The generator 2. -/
def alpha : Gf256 := ⟨2⟩

theorem alpha_pow (e : Nat) : alpha ^ e = ⟨Gf256Tables.exp e⟩ := by
  induction e with
  | zero =>
      rw [pow_zero, Gf256Tables.exp_eq]
      rfl
  | succ e ih =>
      have two : Gf256Tables.exp 1 = 2 := by
        rw [Gf256Tables.exp_eq]
        decide
      rw [pow_succ, ih, ← Gf256Tables.mul_exp_exp, two]
      rfl

theorem alpha_pow_injective {i j : Nat} (hi : i < 255) (hj : j < 255)
    (same : alpha ^ i = alpha ^ j) : i = j := by
  rw [alpha_pow, alpha_pow, Gf256.mk.injEq] at same
  have logs := congrArg Gf256Tables.log same
  rwa [Gf256Tables.log_exp, Gf256Tables.log_exp, Nat.mod_eq_of_lt hi, Nat.mod_eq_of_lt hj] at logs

theorem alpha_pow_mod (e : Nat) : alpha ^ (e % 255) = alpha ^ e := by
  rw [alpha_pow, alpha_pow, Gf256Tables.exp, Gf256Tables.exp, Nat.mod_mod]

end Gf256

/-- `solve_system`: elimination in the given square system, after the size checks. -/
def solveSystem (rows : List (List Gf256)) (n : Nat) : Except String (List Gf256) :=
  if rows.length ≠ n then .error "row count mismatch"
  else if rows.any fun row => row.length ≠ n + 1 then .error "column count mismatch"
  else
    match Gauss.solve (n := n) fun r j => (rows.getD r []).getD j 0 with
    | none => .error "singular matrix"
    | some x => .ok (List.ofFn x)

end Rustnies
