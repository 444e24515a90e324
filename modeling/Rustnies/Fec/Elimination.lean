import Rustnies.Bytes
import Rustnies.Fec.Gf256
import Rustnies.Lib.Loops
import Mathlib.LinearAlgebra.Matrix.ToLinearEquiv

/-! # Elimination in place

`fec/gf256.rs`, `solve_system` as it runs: loops over the rows and columns of a vector of
byte vectors, with every index checked and the inverse of zero refused. On rows that spell
a matrix, each loop is one row operation of the elimination over the field.
-/

namespace Rustnies

open Matrix

namespace Elimination

/-- Why the function did not return a solution: a panic, or its own error. -/
inductive Halt where
  | indexOutOfBounds
  | inverseOfZero
  | failed (message : String)
  deriving Repr, DecidableEq

/-- `&mut [Vec<u8>]`. -/
abbrev Rows := List Bytes

/-! ## The tables, with their bounds -/

/-- `exp` has 512 entries. -/
def expAt (i : Nat) : Except Halt UInt8 :=
  if i < 512 then .ok (Gf256Tables.exp i) else .error .indexOutOfBounds

def mul (a b : UInt8) : Except Halt UInt8 :=
  if a = 0 ∨ b = 0 then .ok 0 else expAt (Gf256Tables.log a + Gf256Tables.log b)

def inv (a : UInt8) : Except Halt UInt8 :=
  if a = 0 then .error .inverseOfZero else expAt ((255 - Gf256Tables.log a) &&& 0xff)

/-! ## Entries -/

/-- `rows[r][j]`. -/
def entry (rows : Rows) (r j : Nat) : Except Halt UInt8 :=
  match rows[r]?.bind (·[j]?) with
  | some v => .ok v
  | none => .error .indexOutOfBounds

/-- `rows[r][j] = v`. -/
def assign (rows : Rows) (r j : Nat) (v : UInt8) : Except Halt Rows :=
  match rows[r]? with
  | none => .error .indexOutOfBounds
  | some row => if j < row.length then .ok (rows.set r (row.set j v)) else .error .indexOutOfBounds

/-- `rows.swap(r, s)`. -/
def swap (rows : Rows) (r s : Nat) : Except Halt Rows :=
  match rows[r]?, rows[s]? with
  | some first, some second => .ok ((rows.set r second).set s first)
  | _, _ => .error .indexOutOfBounds

/-! ## The loops -/

/-- The first of the given rows that is not zero in the column. -/
def findPivot (rows : Rows) (col : Nat) : List Nat → Except Halt (Option Nat)
  | [] => .ok none
  | r :: rest => do
      let v ← entry rows r col
      if v ≠ 0 then return some r else findPivot rows col rest

/-- Multiply a row by the inverse of its pivot, from the pivot on. -/
def normalize (n col : Nat) (rows : Rows) : Except Halt Rows := do
  let invP ← inv (← entry rows col col)
  Loops.forRange col (n + 1) (fun j rows => do
    let v ← mul (← entry rows col j) invP
    assign rows col j v) rows

/-- Clear the column in one row; the pivot's own row and a row without an entry there are
    left alone. -/
def clearRow (n col r : Nat) (rows : Rows) : Except Halt Rows :=
  if r = col then .ok rows
  else do
    let factor ← entry rows r col
    if factor = 0 then return rows
    else Loops.forRange col (n + 1) (fun j rows => do
      let v ← mul factor (← entry rows col j)
      assign rows r j ((← entry rows r j) ^^^ v)) rows

def eliminateColumn (n col : Nat) (rows : Rows) : Except Halt Rows := do
  match ← findPivot rows col (List.range' col (n - col)) with
  | none => .error (.failed "singular matrix")
  | some piv =>
      let rows ← if piv ≠ col then swap rows col piv else pure rows
      let rows ← normalize n col rows
      Loops.forRange 0 n (clearRow n col) rows

/-- `out.push(rows[r][n])`. -/
def readOut (rows : Rows) (n : Nat) : Except Halt Bytes :=
  (List.range n).mapM fun r => entry rows r n

def solveSystem (rows : Rows) (n : Nat) : Except Halt Bytes := do
  if rows.length ≠ n then .error (.failed "row count mismatch")
  else if rows.any fun row => row.length ≠ n + 1 then .error (.failed "column count mismatch")
  else readOut (← Loops.forRange 0 n (eliminateColumn n) rows) n

/-! ## The tables suffice -/

theorem mul_eq (a b : UInt8) : mul a b = .ok (Gf256Tables.mul a b) := by
  have small := Gf256Tables.log_lt a
  have small' := Gf256Tables.log_lt b
  unfold mul Gf256Tables.mul
  split
  · rfl
  · rw [expAt, if_pos (by omega)]

theorem inv_eq {a : UInt8} (nonzero : a ≠ 0) : inv a = .ok (Gf256Tables.inv a) := by
  have low : (255 - Gf256Tables.log a) &&& 0xff ≤ 0xff := Nat.and_le_right
  rw [inv, if_neg nonzero, Gf256Tables.inv, if_neg nonzero, expAt, if_pos (by omega)]

/-! ## Rows that spell a matrix -/

variable {n : ℕ}

/-- A matrix row by row. -/
def spell (a : Gauss.Augmented Gf256 n) : Rows := List.ofFn fun r => List.ofFn fun j => (a r j).byte

theorem spell_length (a : Gauss.Augmented Gf256 n) : (spell a).length = n := List.length_ofFn

theorem spell_getElem (a : Gauss.Augmented Gf256 n) (r : Fin n) :
    (spell a)[r.val]? = some (List.ofFn fun j => (a r j).byte) := by
  simp [spell]

theorem map_eq_spell {rows : List (List Gf256)} (count : rows.length = n)
    (widths : ∀ row ∈ rows, row.length = n + 1) :
    rows.map (fun row => row.map Gf256.byte) = spell fun (r : Fin n) j =>
    (rows.getD r []).getD j 0 := by
  apply List.ext_getElem
  · rw [List.length_map, count, spell_length]
  · intro r left right
    rw [List.length_map] at left
    have width := widths _ (List.getElem_mem left)
    simp only [spell, List.getElem_ofFn, List.getElem_map, List.getD_eq_getElem _ _ left]
    apply List.ext_getElem
    · rw [List.length_map, width, List.length_ofFn]
    · intro j before after
      rw [List.length_map] at before
      rw [List.getElem_ofFn, List.getElem_map, List.getD_eq_getElem _ _ before]

theorem entry_spell (a : Gauss.Augmented Gf256 n) (r : Fin n) (j : Fin (n + 1)) :
    entry (spell a) r j = .ok (a r j).byte := by
  rw [entry, spell_getElem, Option.bind_some, List.getElem?_ofFn, dif_pos j.isLt]

theorem set_ofFn {α : Type} {m : ℕ} (f : Fin m → α) (i : Fin m) (v : α) :
    (List.ofFn f).set i v = List.ofFn (Function.update f i v) := by
  apply List.ext_getElem
  · rw [List.length_set, List.length_ofFn, List.length_ofFn]
  · intro k left right
    obtain ⟨k, rfl⟩ : ∃ k' : Fin m, k'.val = k :=
      ⟨⟨k, by rwa [List.length_ofFn] at right⟩, rfl⟩
    rw [List.getElem_set, List.getElem_ofFn, List.getElem_ofFn]
    by_cases same : k = i
    · subst same
      rw [if_pos rfl, Function.update_self]
    · rw [if_neg fun is => same (Fin.ext is.symm), Function.update_of_ne same]

theorem assign_spell (a : Gauss.Augmented Gf256 n) (r : Fin n) (j : Fin (n + 1)) (v : UInt8) :
    assign (spell a) r j v =
    .ok (spell (Function.update a r (Function.update (a r) j ⟨v⟩))) := by
  have inside : j.val < (List.ofFn fun j => (a r j).byte).length := by
    rw [List.length_ofFn]
    exact j.isLt
  rw [assign, spell_getElem]
  simp only [if_pos inside, Except.ok.injEq, spell, set_ofFn]
  congr 1
  funext i
  by_cases same : i = r
  · subst same
    rw [Function.update_self, Function.update_self]
    congr 1
    funext k
    by_cases here : k = j
    · rw [here, Function.update_self, Function.update_self]
    · rw [Function.update_of_ne here, Function.update_of_ne here]
  · rw [Function.update_of_ne same, Function.update_of_ne same]

theorem swap_spell (a : Gauss.Augmented Gf256 n) (r s : Fin n) :
    swap (spell a) r s = .ok (spell (Gauss.swapRows a r s)) := by
  rw [swap, spell_getElem, spell_getElem]
  simp only [Except.ok.injEq, spell, set_ofFn]
  congr 1
  funext i
  by_cases second : i = s
  · rw [second, Function.update_self, Gauss.swapRows, Equiv.swap_apply_right]
  · rw [Function.update_of_ne second]
    by_cases first : i = r
    · rw [first, Function.update_self, Gauss.swapRows, Equiv.swap_apply_left]
    · rw [Function.update_of_ne first, Gauss.swapRows, Equiv.swap_apply_of_ne_of_ne first second]

/-! ## The loops are the row operations -/

theorem byte_mul (x y : Gf256) : Gf256Tables.mul x.byte y.byte = (x * y).byte := rfl

theorem byte_sub (x y : Gf256) : x.byte ^^^ y.byte = (x - y).byte := rfl

theorem byte_eq_zero {x : Gf256} : x.byte = 0 ↔ x = 0 := (Gf256.ext_iff (y := 0)).symm

variable {a : Gauss.Augmented Gf256 n} {col : Fin n}

theorem findPivot_map (rs : List (Fin n)) : findPivot (spell a) col (rs.map Fin.val) =
    .ok ((rs.find? fun r => decide (a r col.castSucc ≠ 0)).map Fin.val) := by
  induction rs with
  | nil => rfl
  | cons r rest ih =>
      have here : entry (spell a) r col = .ok (a r col.castSucc).byte :=
        entry_spell a r col.castSucc
      rw [List.map_cons, findPivot, here, List.find?_cons]
      by_cases zero : a r col.castSucc = 0
      · simpa [zero, byte_eq_zero, bind, Except.bind] using ih
      · simp [zero, byte_eq_zero, bind, Except.bind, pure, Except.pure]

theorem range'_eq (col : Fin n) : List.range' col (n - col) =
    ((List.finRange n).filter fun r => decide (col ≤ r)).map Fin.val := by
  have all : (List.finRange n).map Fin.val = List.range' 0 col ++ List.range' col (n - col) := by
    rw [List.map_coe_finRange_eq_range, List.range_eq_range']
    have split := List.range'_append_1 (s := 0) (m := col) (n := n - col)
    rw [Nat.zero_add, Nat.add_sub_cancel' (Nat.le_of_lt col.isLt)] at split
    exact split.symm
  have keep : (List.finRange n).filter (fun r => decide (col ≤ r)) =
      (List.finRange n).filter ((fun r => decide (col.val ≤ r)) ∘ Fin.val) := rfl
  rw [keep, ← List.filter_map, all, List.filter_append]
  have before : (List.range' 0 col).filter (fun r => decide (col.val ≤ r)) = [] := by
    rw [List.filter_eq_nil_iff]
    intro r inside
    have := (List.mem_range'_1.mp inside).2
    simp only [decide_eq_true_eq]
    omega
  have after : (List.range' col (n - col)).filter (fun r => decide (col.val ≤ r)) =
      List.range' col (n - col) := by
    rw [List.filter_eq_self]
    intro r inside
    exact decide_eq_true (List.mem_range'_1.mp inside).1
  rw [before, after, List.nil_append]

theorem findPivot_spell : findPivot (spell a) col (List.range' col (n - col)) =
    .ok ((Gauss.pivot a col).map Fin.val) := by
  rw [range'_eq, findPivot_map, List.find?_filter, Gauss.pivot]
  simp only [Bool.decide_and, Bool.decide_eq_true]

/-- Row `r` has the values `f` from `col` up to column `i`. -/
def patch (a : Gauss.Augmented Gf256 n) (r col : Fin n) (f : Fin (n + 1) → Gf256) (i : ℕ) :
    Gauss.Augmented Gf256 n := fun r' j => if r' = r ∧ col.castSucc ≤ j ∧ j.val < i
    then f j else a r' j

theorem patch_start (r : Fin n) (f : Fin (n + 1) → Gf256) : patch a r col f col = a := by
  funext r' j
  have none : ¬ (r' = r ∧ col.castSucc ≤ j ∧ j.val < col) := fun ⟨_, after, before⟩ =>
    absurd (Fin.le_def.mp after) (Nat.not_le.mpr before)
  rw [patch, if_neg none]

theorem patch_succ (r : Fin n) (f : Fin (n + 1) → Gf256) {j : Fin (n + 1)}
    (after : col.castSucc ≤ j) :
    Function.update (patch a r col f j) r (Function.update (patch a r col f j r) j (f j)) =
      patch a r col f (j + 1) := by
  funext r' j'
  by_cases row : r' = r
  · subst row
    rw [Function.update_self]
    by_cases here : j' = j
    · subst here
      rw [Function.update_self, patch, if_pos ⟨rfl, after, Nat.lt_succ_self _⟩]
    · have apart : j'.val ≠ j.val := fun same => here (Fin.ext same)
      have limits : j'.val < j ↔ j'.val < j + 1 := by omega
      rw [Function.update_of_ne here, patch, patch]
      simp only [limits]
  · rw [Function.update_of_ne row, patch, patch, if_neg fun both => row both.1,
      if_neg fun both => row both.1]

theorem rowLoop {r : Fin n} {f : Fin (n + 1) → Gf256} {body : ℕ → Rows → Except Halt Rows}
    (turn : ∀ j : Fin (n + 1), col.castSucc ≤ j → body j (spell (patch a r col f j)) =
      assign (spell (patch a r col f j)) r j (f j).byte) :
    Loops.forRange col (n + 1) body (spell a) = .ok (spell (patch a r col f (n + 1))) := by
  have turns : ∀ i, col.val ≤ i → i < n + 1 → body i (spell (patch a r col f i)) =
      .ok (spell (patch a r col f (i + 1))) := by
    intro i after inside
    have done := turn ⟨i, inside⟩ after
    rw [assign_spell] at done
    exact done.trans
      (congrArg (fun m => Except.ok (spell m)) (patch_succ r f (Fin.le_def.mpr after)))
  have loop := Loops.forRange_eq (fun i => spell (patch a r col f i))
    (Nat.le_of_lt (Nat.lt_succ_of_lt col.isLt)) turns
  simp only [patch_start] at loop
  exact loop

theorem normalize_spell (nonzero : a col col.castSucc ≠ 0) : normalize n col (spell a) =
    .ok (spell (Gauss.scaleRow a col (a col col.castSucc)⁻¹)) := by
  have pivot : entry (spell a) col col = .ok (a col col.castSucc).byte :=
    entry_spell a col col.castSucc
  have inverse : inv (a col col.castSucc).byte = .ok (a col col.castSucc)⁻¹.byte :=
    inv_eq (fun zero => nonzero (byte_eq_zero.mp zero))
  have whole : patch a col col (fun j => a col j * (a col col.castSucc)⁻¹) (n + 1) =
      Gauss.scaleRow a col (a col col.castSucc)⁻¹ := by
    funext r j
    by_cases row : r = col
    · subst row
      simp only [patch, Gauss.scaleRow, j.isLt, and_true]
    · simp only [patch, Gauss.scaleRow, row, false_and, if_false]
  rw [← whole, normalize, pivot]
  simp only [bind, Except.bind, inverse]
  apply rowLoop
  intro j after
  have old : patch a col col (fun j => a col j * (a col col.castSucc)⁻¹) j col j = a col j := by
    rw [patch, if_neg fun inside => Nat.lt_irrefl _ inside.2.2]
  rw [entry_spell, old]
  simp only [mul_eq, byte_mul]

theorem clearRow_spell (r : Fin n) : clearRow n col r (spell a) =
    .ok (spell (if r = col then a
      else patch a r col (fun j => a r j - a r col.castSucc * a col j) (n + 1))) := by
  rw [clearRow]
  by_cases own : r = col
  · rw [if_pos (congrArg Fin.val own), if_pos own]
  · have factor : entry (spell a) r col = .ok (a r col.castSucc).byte :=
      entry_spell a r col.castSucc
    rw [if_neg fun same => own (Fin.ext same), if_neg own, factor]
    simp only [bind, Except.bind]
    by_cases zero : a r col.castSucc = 0
    · have same : patch a r col (fun j => a r j - a r col.castSucc * a col j) (n + 1) = a := by
        funext r' j
        by_cases row : r' = r
        · subst row
          simp only [patch, zero, zero_mul, sub_zero, ite_self]
        · rw [patch, if_neg fun inside => row inside.1]
      rw [if_pos (byte_eq_zero.mpr zero), same]
      rfl
    · rw [if_neg fun none => zero (byte_eq_zero.mp none)]
      apply rowLoop
      intro j after
      have old : patch a r col (fun j => a r j - a r col.castSucc * a col j) j r j = a r j := by
        rw [patch, if_neg fun inside => Nat.lt_irrefl _ inside.2.2]
      have pivotRow : patch a r col (fun j => a r j - a r col.castSucc * a col j) j col j =
        a col j := by
        rw [patch, if_neg fun inside => own inside.1.symm]
      simp only [entry_spell, old, pivotRow, mul_eq, byte_mul, byte_sub]

/-- The column is cleared in the rows before `i`. -/
def clearedBefore (a : Gauss.Augmented Gf256 n) (col : Fin n) (i : ℕ) : Gauss.Augmented Gf256 n :=
  fun r j => if r.val < i then Gauss.clearColumn a col r j else a r j

theorem clearedBefore_succ (r : Fin n) : (if r = col then clearedBefore a col r
      else patch (clearedBefore a col r) r col (fun j => clearedBefore a col r r j -
        clearedBefore a col r r col.castSucc * clearedBefore a col r col j) (n + 1)) =
    clearedBefore a col (r + 1) := by
  -- the rows from `r` on and the pivot's row are as they were
  have here : ∀ j, clearedBefore a col r r j = a r j := fun j => if_neg (Nat.lt_irrefl _)
  have pivotRow : ∀ j, clearedBefore a col r col j = a col j := by
    intro j
    unfold clearedBefore Gauss.clearColumn
    simp only [ne_eq, not_true, false_and, if_false, ite_self]
  simp only [here, pivotRow]
  funext r' j
  have other : r' ≠ r → clearedBefore a col r r' j = clearedBefore a col (r + 1) r' j := by
    intro apart
    have limits : r'.val < r ↔ r'.val < r + 1 := by
      have := fun same => apart (Fin.ext same)
      omega
    simp only [clearedBefore, limits]
  have now : clearedBefore a col (r + 1) r j = Gauss.clearColumn a col r j :=
    if_pos (Nat.lt_succ_self _)
  by_cases own : r = col
  · rw [if_pos own]
    by_cases row : r' = r
    · subst row
      rw [here, now, Gauss.clearColumn, if_neg fun both => both.1 own]
    · exact other row
  · rw [if_neg own]
    by_cases row : r' = r
    · subst row
      simp only [patch, here, now, Gauss.clearColumn, own, j.isLt, and_true, true_and, ne_eq,
        not_false_eq_true]
    · rw [patch, if_neg fun inside => row inside.1]
      exact other row

theorem clearRows_spell : Loops.forRange 0 n (clearRow n col) (spell a) =
    .ok (spell (Gauss.clearColumn a col)) := by
  have turns : ∀ i, 0 ≤ i → i < n → clearRow n col i (spell (clearedBefore a col i)) =
      .ok (spell (clearedBefore a col (i + 1))) := by
    intro i _ inside
    rw [← clearedBefore_succ ⟨i, inside⟩]
    exact clearRow_spell ⟨i, inside⟩
  have loop := Loops.forRange_eq (fun i => spell (clearedBefore a col i)) (Nat.zero_le n) turns
  have first : clearedBefore a col 0 = a := by
    funext r j
    exact if_neg (Nat.not_lt_zero _)
  have last : clearedBefore a col n = Gauss.clearColumn a col := by
    funext r j
    exact if_pos r.isLt
  simp only [first, last] at loop
  exact loop

/-- One column is one step of the elimination over the field; no inverse of zero is asked
    for and no index is out of bounds. -/
theorem eliminateColumn_spell (a : Gauss.Augmented Gf256 n) (col : Fin n) :
    eliminateColumn n col (spell a) =
      (Gauss.step a col).elim (.error (.failed "singular matrix")) fun b => .ok (spell b) := by
  rw [eliminateColumn, findPivot_spell, Gauss.step]
  cases found : Gauss.pivot a col with
  | none => rfl
  | some piv =>
      have nonzero : Gauss.swapRows a col piv col col.castSucc ≠ 0 := by
        rw [Gauss.swapRows, Equiv.swap_apply_left]
        exact (Gauss.pivot_eq_some found).2
      simp only [bind, Except.bind, Option.map_some, Option.elim_some]
      by_cases own : piv = col
      · subst own
        have same : Gauss.swapRows a piv piv = a := by
          funext r
          rw [Gauss.swapRows, Equiv.swap_self, Equiv.refl_apply]
        rw [same] at nonzero ⊢
        rw [if_neg fun apart => apart rfl]
        simp only [pure, Except.pure, normalize_spell nonzero]
        exact clearRows_spell
      · rw [if_pos fun same => own (Fin.ext same), swap_spell]
        simp only [normalize_spell nonzero]
        exact clearRows_spell

theorem readOut_spell (a : Gauss.Augmented Gf256 n) :
    readOut (spell a) n = .ok (List.ofFn fun r => (a r (Fin.last n)).byte) := by
  have walk : ∀ rs : List (Fin n), (rs.map Fin.val).mapM (fun r => entry (spell a) r n) =
      .ok (rs.map fun r => (a r (Fin.last n)).byte) := by
    intro rs
    induction rs with
    | nil => rfl
    | cons r rest ih =>
        have here : entry (spell a) r n = .ok (a r (Fin.last n)).byte :=
          entry_spell a r (Fin.last n)
        rw [List.map_cons, List.mapM_cons, here, ih]
        rfl
  rw [readOut, ← List.map_coe_finRange_eq_range, walk, List.ofFn_eq_map]

theorem solveSystem_spell (a : Gauss.Augmented Gf256 n) : solveSystem (spell a) n =
    (Gauss.solve a).elim (.error (.failed "singular matrix")) fun x =>
    .ok (List.ofFn fun r => (x r).byte) := by
  have widths : ((spell a).any fun row => row.length ≠ n + 1) = false := by
    rw [List.any_eq_false]
    intro row inside
    obtain ⟨r, rfl⟩ := (List.mem_ofFn' _ _).mp inside
    simp
  have loop := Loops.forRange_foldlM (eliminateColumn_spell (n := n)) a
  rw [solveSystem, if_neg fun count => count (spell_length a), widths, if_neg Bool.false_ne_true,
    loop, Gauss.solve]
  cases (List.finRange n).foldlM Gauss.step a with
  | none => rfl
  | some b => exact readOut_spell b

theorem solveSystem_map (rows : List (List Gf256)) (n : ℕ) :
    solveSystem (rows.map fun row => row.map Gf256.byte) n =
      ((Rustnies.solveSystem rows n).map fun x => x.map Gf256.byte).mapError .failed := by
  by_cases count : rows.length = n
  · have same : (rows.map fun row => row.map Gf256.byte).any (fun row => row.length ≠ n + 1) =
        rows.any fun row => row.length ≠ n + 1 := by
      simp only [List.any_map, Function.comp_def, List.length_map]
    by_cases wide : rows.any fun row => row.length ≠ n + 1
    · rw [solveSystem, Rustnies.solveSystem, List.length_map, if_neg fun other => other count,
        same, if_pos wide, if_neg fun other => other count, if_pos wide]
      rfl
    · have widths : ∀ row ∈ rows, row.length = n + 1 := by
        simpa using wide
      rw [map_eq_spell count widths, solveSystem_spell, Rustnies.solveSystem,
        if_neg fun other => other count, if_neg wide]
      cases Gauss.solve (n := n) fun r j => (rows.getD r []).getD j 0 with
      | none => rfl
      | some x =>
          have bytes : (List.ofFn x).map Gf256.byte = List.ofFn fun r => (x r).byte := List.map_ofFn
          simp [Except.map, Except.mapError, bytes]
  · rw [solveSystem, Rustnies.solveSystem, List.length_map, if_pos count, if_pos count]
    rfl

/-! ## What is returned -/

/-- The coefficients. -/
def coefficients (a : Gauss.Augmented Gf256 n) : Matrix (Fin n) (Fin n) Gf256 :=
  fun r j => a r j.castSucc

/-- The right-hand side. -/
def rightHand (a : Gauss.Augmented Gf256 n) : Fin n → Gf256 := fun r => a r (Fin.last n)

theorem solves_iff {x : Fin n → Gf256} :
    Gauss.Solves a x ↔ coefficients a *ᵥ x = rightHand a :=
  funext_iff.symm

theorem kills_iff {x : Fin n → Gf256} : Gauss.Kills a x ↔ coefficients a *ᵥ x = 0 :=
  funext_iff.symm

/-- A system of `n` equations in `n` unknowns is solved exactly when its coefficients are
    invertible, and then by the only solution; otherwise it is refused as singular. The solver
    over field elements that `decode` calls is these loops on bytes, on every input. -/
theorem solveSystem_solves (n : ℕ) (a : Gauss.Augmented Gf256 n) :
    (IsUnit (coefficients a) → ∃ x, solveSystem (spell a) n =
      .ok (List.ofFn fun r => (x r).byte) ∧ coefficients a *ᵥ x = rightHand a ∧
      ∀ x', coefficients a *ᵥ x' = rightHand a → x' = x) ∧
    (¬ IsUnit (coefficients a) → solveSystem (spell a) n =
      .error (.failed "singular matrix")) ∧
    ∀ rows : List (List Gf256), solveSystem (rows.map fun row => row.map Gf256.byte) n =
      ((Rustnies.solveSystem rows n).map fun x => x.map Gf256.byte).mapError .failed := by
  rw [← and_assoc]
  refine ⟨?_, fun rows => solveSystem_map rows n⟩
  rw [solveSystem_spell, Matrix.isUnit_iff_isUnit_det, isUnit_iff_ne_zero]
  cases solved : Gauss.solve a with
  | none =>
      obtain ⟨x, nonzero, kills⟩ := Gauss.kernel_of_solve_eq_none solved
      have singular := Matrix.exists_mulVec_eq_zero_iff.mp ⟨x, nonzero, kills_iff.mp kills⟩
      exact ⟨fun regular => absurd singular regular, fun _ => rfl⟩
  | some x =>
      have only := Gauss.solves_iff_of_solve solved
      constructor
      · intro regular
        exact ⟨x, rfl, solves_iff.mp ((only x).mpr rfl), fun x' solves =>
          (only x').mp (solves_iff.mpr solves)⟩
      · intro singular
        -- a kernel vector would move the solution
        obtain ⟨z, nonzero, kills⟩ := Matrix.exists_mulVec_eq_zero_iff.mpr (not_not.mp singular)
        have moved : coefficients a *ᵥ (x + z) = rightHand a := by
          rw [Matrix.mulVec_add, kills, add_zero, solves_iff.mp ((only x).mpr rfl)]
        have same := (only (x + z)).mp (solves_iff.mpr moved)
        exact absurd (add_eq_left.mp same) nonzero

end Elimination

end Rustnies
