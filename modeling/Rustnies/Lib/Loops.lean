import Mathlib.Data.List.Range

/-! # Counted loops that may stop

A `for` loop over a range of numbers whose body may end the program with an error. What
the states of the loop are, turn by turn, is enough to know where it ends.
-/

namespace Loops

variable {ε σ : Type}

/-- `for i in lo..hi`. -/
def forRange (lo hi : Nat) (body : Nat → σ → Except ε σ) (s : σ) : Except ε σ :=
  (List.range' lo (hi - lo)).foldlM (fun s i => body i s) s

theorem forRange_self (lo : Nat) (body : Nat → σ → Except ε σ) (s : σ) :
    forRange lo lo body s = .ok s := by
  rw [forRange, Nat.sub_self]
  rfl

theorem forRange_of_lt {lo hi : Nat} (less : lo < hi)
    (body : Nat → σ → Except ε σ) (s : σ) :
    forRange lo hi body s = (body lo s).bind fun s' => forRange (lo + 1) hi body s' := by
  have more : hi - lo = hi - (lo + 1) + 1 := by omega
  simp only [forRange, more, List.range'_succ, List.foldlM_cons]
  rfl

theorem forRange_eq {lo hi : Nat} {body : Nat → σ → Except ε σ} (states : Nat → σ)
    (ordered : lo ≤ hi)
    (turn : ∀ i, lo ≤ i → i < hi → body i (states i) = .ok (states (i + 1))) :
    forRange lo hi body (states lo) = .ok (states hi) := by
  obtain ⟨n, rfl⟩ := Nat.exists_eq_add_of_le ordered
  clear ordered
  induction n generalizing lo with
  | zero => exact forRange_self lo body (states lo)
  | succ n ih =>
      rw [forRange_of_lt (by omega), turn lo (Nat.le_refl lo) (by omega)]
      have rest : forRange (lo + 1) (lo + 1 + n) body (states (lo + 1)) =
        .ok (states (lo + 1 + n)) :=
        ih fun i later inside => turn i (by omega) (by omega)
      rw [Nat.add_right_comm, Nat.add_assoc] at rest
      exact rest

theorem forRange_foldlM {n : Nat} {body : Nat → σ → Except ε σ} {τ : Type}
    {step : τ → Fin n → Option τ} {spell : τ → σ} {stop : ε}
    (turn : ∀ (t : τ) (i : Fin n), body i (spell t) = (step t i).elim (.error stop) fun t' =>
      .ok (spell t')) (t : τ) :
    forRange 0 n body (spell t) =
      ((List.finRange n).foldlM step t).elim (.error stop) fun t' => .ok (spell t') := by
  have walk : ∀ (is : List (Fin n)) (t : τ), (is.map Fin.val).foldlM (fun s i => body i s)
    (spell t) = (is.foldlM step t).elim (.error stop) fun t' => .ok (spell t') := by
    intro is
    induction is with
    | nil =>
        intro t
        rfl
    | cons i is ih =>
        intro t
        rw [List.map_cons, List.foldlM_cons, List.foldlM_cons, turn t i]
        cases step t i with
        | none => rfl
        | some t' => exact ih t'
  have all : List.range' 0 (n - 0) = (List.finRange n).map Fin.val := by
    rw [Nat.sub_zero, ← List.range_eq_range', List.map_coe_finRange_eq_range]
  rw [forRange, all]
  exact walk _ t

end Loops
