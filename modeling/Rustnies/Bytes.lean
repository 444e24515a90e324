import Mathlib.Algebra.Group.Nat.Defs
import Mathlib.Data.List.Basic
import Mathlib.Data.Nat.Basic

/-! # Bytes and fixed-width integers on the wire

Everything the program sends is a byte string. Integers are written with
`to_le_bytes` or `to_be_bytes` and read back with the inverse; both are given
here for an arbitrary width, over `Nat`, and the fixed-width types are used at
their own widths.

The handshake code never looks inside the bytes that the cryptographic
primitives return, so it is written over a type of bytes `β` that has literals
and a numeric reading. The program is the instance at `UInt8`.
-/

namespace Rustnies

abbrev Bytes := List UInt8

/-- What the code needs of a byte: literals, a numeric reading, and xor. -/
class Byte (β : Type) where
  lit : UInt8 → β
  val : β → UInt8
  xor : β → β → β
  val_lit : ∀ b, val (lit b) = b

instance : Byte UInt8 where
  lit b := b
  val b := b
  xor a b := a ^^^ b
  val_lit _ := rfl

/-- Constant bytes of the program text, as message bytes. -/
def lits {β : Type} [Byte β] (bs : Bytes) : List β := bs.map Byte.lit

@[simp]
theorem lits_length {β : Type} [Byte β] (bs : Bytes) : (lits bs : List β).length = bs.length :=
  List.length_map _

@[simp]
theorem lits_nil {β : Type} [Byte β] : (lits [] : List β) = [] := rfl

/-! ## Reading at an offset -/

/-- `&buf[i..j]`, for an upper bound inside the buffer. -/
def slice {α : Type} (buf : List α) (i j : Nat) : List α := (buf.drop i).take (j - i)

/-- `buf[i]`, for an index inside the buffer. -/
def byteAt (buf : Bytes) (i : Nat) : UInt8 := buf.getD i 0

@[simp]
theorem slice_zero {α : Type} (buf : List α) (j : Nat) : slice buf 0 j = buf.take j := rfl

theorem slice_length {α : Type} {buf : List α} {i j : Nat} (inside : j ≤ buf.length) :
    (slice buf i j).length = j - i := by
  simp only [slice, List.length_take, List.length_drop]
  omega

theorem take_append_slice {α : Type} (buf : List α) {i j : Nat} (ordered : i ≤ j) :
    buf.take i ++ slice buf i j = buf.take j := by
  obtain ⟨n, rfl⟩ := Nat.exists_eq_add_of_le ordered
  rw [slice, Nat.add_sub_cancel_left, List.take_add]

theorem singleton_byteAt {buf : Bytes} {i : Nat} (inside : i < buf.length) :
    [byteAt buf i] = slice buf i (i + 1) := by
  rw [slice, Nat.add_sub_cancel_left, byteAt, List.drop_eq_getElem_cons inside,
    List.getD_eq_getElem?_getD, List.getElem?_eq_getElem inside]
  rfl

theorem slice_append_left {α : Type} {front back : List α} {i j : Nat}
    (inside : j ≤ front.length) :
    slice (front ++ back) i j = slice front i j := by
  rw [slice, slice, List.drop_append, List.take_append_of_le_length]
  rw [List.length_drop]
  omega

theorem byteAt_append_left {front back : Bytes} {i : Nat} (inside : i < front.length) :
    byteAt (front ++ back) i = byteAt front i := by
  simp only [byteAt, List.getD_eq_getElem?_getD, List.getElem?_append_left inside]

/-! ## Little-endian -/

/-- The `w` low-order bytes of `n`, least significant first (`to_le_bytes`). -/
def leBytes : (w n : Nat) → Bytes
  | 0, _ => []
  | w + 1, n => UInt8.ofNat (n % 256) :: leBytes w (n / 256)

/-- The number whose little-endian digits are the given bytes (`from_le_bytes`). -/
def leValue : Bytes → Nat
  | [] => 0
  | b :: bs => b.toNat + 256 * leValue bs

@[simp]
theorem leBytes_length (w n : Nat) : (leBytes w n).length = w := by
  induction w generalizing n with
  | zero => rfl
  | succ w ih => simp only [leBytes, List.length_cons, ih]

theorem leValue_leBytes (w n : Nat) : leValue (leBytes w n) = n % 256 ^ w := by
  induction w generalizing n with
  | zero => simp [leBytes, leValue, Nat.mod_one]
  | succ w ih =>
      have low : (UInt8.ofNat (n % 256)).toNat = n % 256 := by
        simp
      rw [leBytes, leValue, ih, low, Nat.pow_succ', Nat.mod_mul]

theorem leBytes_leValue (bs : Bytes) : leBytes bs.length (leValue bs) = bs := by
  induction bs with
  | nil => rfl
  | cons b bs ih =>
      have small := b.toNat_lt
      have low : (b.toNat + 256 * leValue bs) % 256 = b.toNat := by omega
      have high : (b.toNat + 256 * leValue bs) / 256 = leValue bs := by omega
      simp only [List.length_cons, leValue, leBytes, low, high, ih, UInt8.ofNat_toNat]

theorem leValue_lt (bs : Bytes) : leValue bs < 256 ^ bs.length := by
  induction bs with
  | nil => simp [leValue]
  | cons b bs ih =>
      have small := b.toNat_lt
      simp only [leValue, List.length_cons, Nat.pow_succ']
      omega

/-! ## Big-endian 16-bit lengths -/

/-- `(n as u16).to_be_bytes()`. -/
def be16 (n : Nat) : Bytes := [UInt8.ofNat (n / 256 % 256), UInt8.ofNat (n % 256)]

/-- `u16::from_be_bytes([hi, lo])`. -/
def be16Value (hi lo : UInt8) : Nat := hi.toNat * 256 + lo.toNat

@[simp]
theorem be16_length (n : Nat) : (be16 n).length = 2 := rfl

theorem be16Value_be16 {n : Nat} (small : n < 65536) :
    be16Value (UInt8.ofNat (n / 256 % 256)) (UInt8.ofNat (n % 256)) = n := by
  simp only [be16Value, UInt8.toNat_ofNat']
  omega

theorem be16_be16Value (hi lo : UInt8) : be16 (be16Value hi lo) = [hi, lo] := by
  have small := lo.toNat_lt
  have high : (hi.toNat * 256 + lo.toNat) / 256 % 256 = hi.toNat := by
    have := hi.toNat_lt
    omega
  have low : (hi.toNat * 256 + lo.toNat) % 256 = lo.toNat := by omega
  simp only [be16, be16Value, high, low, UInt8.ofNat_toNat]

theorem be16Value_lt (hi lo : UInt8) : be16Value hi lo < 65536 := by
  have := hi.toNat_lt
  have := lo.toNat_lt
  simp only [be16Value]
  omega

/-! ## The widths in use -/

def u32Bytes (n : UInt32) : Bytes := leBytes 4 n.toNat

def u32Value (bs : Bytes) : UInt32 := UInt32.ofNat (leValue bs)

def u16Bytes (n : UInt16) : Bytes := leBytes 2 n.toNat

def u16Value (bs : Bytes) : UInt16 := UInt16.ofNat (leValue bs)

@[simp]
theorem u32Bytes_length (n : UInt32) : (u32Bytes n).length = 4 := leBytes_length ..

@[simp]
theorem u16Bytes_length (n : UInt16) : (u16Bytes n).length = 2 := leBytes_length ..

@[simp]
theorem u32Value_u32Bytes (n : UInt32) : u32Value (u32Bytes n) = n := by
  have small := n.toNat_lt
  rw [u32Value, u32Bytes, leValue_leBytes, Nat.mod_eq_of_lt (by omega), UInt32.ofNat_toNat]

@[simp]
theorem u16Value_u16Bytes (n : UInt16) : u16Value (u16Bytes n) = n := by
  have small := n.toNat_lt
  rw [u16Value, u16Bytes, leValue_leBytes, Nat.mod_eq_of_lt (by omega), UInt16.ofNat_toNat]

theorem u32Bytes_u32Value {bs : Bytes} (width : bs.length = 4) : u32Bytes (u32Value bs) = bs := by
  have small := leValue_lt bs
  rw [width] at small
  have exact_ : (u32Value bs).toNat = leValue bs := by
    simp only [u32Value, UInt32.toNat_ofNat']
    omega
  rw [u32Bytes, exact_, ← width, leBytes_leValue]

theorem u16Bytes_u16Value {bs : Bytes} (width : bs.length = 2) : u16Bytes (u16Value bs) = bs := by
  have small := leValue_lt bs
  rw [width] at small
  have exact_ : (u16Value bs).toNat = leValue bs := by
    simp only [u16Value, UInt16.toNat_ofNat']
    omega
  rw [u16Bytes, exact_, ← width, leBytes_leValue]

theorem u32Bytes_injective {a b : UInt32} (same : u32Bytes a = u32Bytes b) : a = b := by
  rw [← u32Value_u32Bytes a, ← u32Value_u32Bytes b, same]

theorem u16Bytes_injective {a b : UInt16} (same : u16Bytes a = u16Bytes b) : a = b := by
  rw [← u16Value_u16Bytes a, ← u16Value_u16Bytes b, same]

end Rustnies
