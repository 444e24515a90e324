import Mathlib.Data.List.Basic
import Mathlib.Order.Defs.LinearOrder

/-! # Token buckets

A bucket that holds up to `capacity` tokens and earns one for every `interval` of time.
What it holds is kept as time, so that no part of an interval is lost between two
requests. Requests that are all granted are bounded in every window: by the capacity,
and one more for every interval of it.
-/

/-- What a bucket holds, in units of time, and when it was last looked at. -/
structure TokenBucket (capacity interval : Nat) where
  credit : Nat
  last : Nat
  deriving Repr, DecidableEq

namespace TokenBucket

variable {capacity interval : Nat}

/-- A full bucket. -/
def full (now : Nat) : TokenBucket capacity interval := ⟨capacity * interval, now⟩

/-- What the bucket holds at a later time. -/
def creditAt (b : TokenBucket capacity interval) (now : Nat) : Nat :=
  min (capacity * interval) (b.credit + (now - b.last))

/-- A request is granted when there is a token. -/
def take (b : TokenBucket capacity interval) (now : Nat) : Bool × TokenBucket capacity interval :=
  if interval ≤ b.creditAt now then (true, ⟨b.creditAt now - interval, now⟩)
    else (false, ⟨b.creditAt now, now⟩)

/-- Every one of these requests is granted. -/
def Grants : TokenBucket capacity interval → List Nat → Prop
  | _, [] => True
  | b, now :: times =>
      interval ≤ b.creditAt now ∧ Grants ⟨b.creditAt now - interval, now⟩ times

theorem creditAt_le (b : TokenBucket capacity interval) (now : Nat) :
    b.creditAt now ≤ capacity * interval :=
  Nat.min_le_left _ _

theorem creditAt_self {credit now : Nat} (room : credit ≤ capacity * interval) :
    (⟨credit, now⟩ : TokenBucket capacity interval).creditAt now = credit := by
  simp only [creditAt]
  omega

/-- Time that passes is earned, as long as there is room for it. -/
theorem le_creditAt {b : TokenBucket capacity interval} {held held' since now : Nat}
    (had : held ≤ b.creditAt since) (forward : b.last ≤ since) (later : since ≤ now)
    (earned : held' ≤ held + (now - since)) (room : held' ≤ capacity * interval) :
    held' ≤ b.creditAt now := by
  simp only [creditAt] at had ⊢
  omega

theorem creditAt_mono (b : TokenBucket capacity interval) {since now : Nat}
    (later : since ≤ now) :
    b.creditAt since ≤ b.creditAt now := by
  simp only [creditAt]
  omega

/-- What the requests of a window have spent so far, and what is left. -/
structure Spent (b : TokenBucket capacity interval) (start spent : Nat) : Prop where
  balance : spent * interval + b.credit ≤ capacity * interval + (b.last - start)
  inside : spent = 0 ∨ start ≤ b.last

theorem full_spent (now start : Nat) : (full now : TokenBucket capacity interval).Spent start 0 :=
  ⟨by simp only [full]; omega, .inl rfl⟩

section Windows

variable {b : TokenBucket capacity interval} {start spent now : Nat}

theorem Spent.pass (before : b.Spent start spent) (later : b.last ≤ now) :
    Spent (⟨b.creditAt now - interval, now⟩ : TokenBucket capacity interval) start spent := by
  obtain ⟨balance, inside⟩ := before
  have most := b.creditAt_le now
  have earned : b.creditAt now ≤ b.credit + (now - b.last) := Nat.min_le_right _ _
  constructor
  · rcases inside with rfl | inside
    · simp only
      omega
    · simp only
      omega
  · exact inside.imp_right fun inside => Nat.le_trans inside later

theorem Spent.count (before : b.Spent start spent) (later : b.last ≤ now) (here : start ≤ now)
    (granted : interval ≤ b.creditAt now) :
    Spent (⟨b.creditAt now - interval, now⟩ : TokenBucket capacity interval) start
    (spent + 1) := by
  obtain ⟨balance, inside⟩ := before
  have most := b.creditAt_le now
  have earned : b.creditAt now ≤ b.credit + (now - b.last) := Nat.min_le_right _ _
  refine ⟨?_, .inr here⟩
  rw [Nat.succ_mul]
  rcases inside with rfl | inside
  · simp only
    omega
  · simp only
    omega

theorem Spent.le {width : Nat} (after : b.Spent start spent) (positive : 0 < interval)
    (within : b.last ≤ start + width) : spent ≤ capacity + width / interval := by
  have balance := after.balance
  rw [← Nat.mul_add_div positive, Nat.le_div_iff_mul_le positive, Nat.mul_comm interval]
  omega

/-- Requests that are all granted: in any window at most the capacity, and one more for
    every interval of it. -/
theorem Grants.countP_le {times : List Nat} (grants : b.Grants times)
    (ordered : (b.last :: times).Pairwise (· ≤ ·)) (positive : 0 < interval) (start width : Nat)
    (before : b.Spent start spent) (few : spent ≤ capacity + width / interval) :
    spent + times.countP (fun t => start ≤ t ∧ t ≤ start + width) ≤ capacity + width /
    interval := by
  induction times generalizing b spent with
  | nil => exact few
  | cons now times ih =>
      obtain ⟨granted, rest⟩ := grants
      obtain ⟨first, later⟩ := List.pairwise_cons.mp ordered
      have here : b.last ≤ now := first now List.mem_cons_self
      rw [List.countP_cons]
      by_cases inWindow : start ≤ now ∧ now ≤ start + width
      · have after := before.count here inWindow.1 granted
        have whole := ih rest later after (after.le positive inWindow.2)
        simp only [inWindow, and_self, decide_true, if_true]
        omega
      · simp only [inWindow, decide_false, Bool.false_eq_true, if_false]
        exact ih rest later (before.pass here) few

end Windows

end TokenBucket
