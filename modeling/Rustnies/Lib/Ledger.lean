import Mathlib.Data.List.Basic

/-! # Ledgers of items that end once

Items are admitted one at a time. At most one of them is held; each time it is looked at
an outcome is written down for it, and it is kept or let go. When an item is kept exactly
for the outcomes that are not final, every item that is no longer held has ended, once,
and nothing is written about it afterwards.
-/

/-- The items in the order of their admission, the one that is held, and the outcomes
    in the order they were written. -/
structure Ledger (α O : Type) where
  items : List α := []
  held : Option Nat := none
  log : List (Nat × O) := []

namespace Ledger

variable {α O : Type}

/-- A new item is held until it is settled. -/
def add (l : Ledger α O) (a : α) : Ledger α O :=
  { l with items := l.items ++ [a], held := some l.items.length }

/-- Write an outcome for the held item, and keep it or let it go. -/
def settle (l : Ledger α O) (o : O) (keep : Bool) : Ledger α O :=
  match l.held with
  | none => l
  | some i => { l with held := if keep then some i else none, log := l.log ++ [(i, o)] }

def heldItem (l : Ledger α O) : Option α := l.held.bind fun i => l.items[i]?

/-- The items that got one of these outcomes, in the order they got it. -/
def picked (l : Ledger α O) (pick : O → Bool) : List α :=
  l.log.filterMap fun e => if pick e.2 then l.items[e.1]? else none

/-- Every item that is not held has ended, and an item that ended is not held and has no
    later entry. -/
structure Accounted (final : O → Bool) (l : Ledger α O) : Prop where
  known : ∀ e ∈ l.log, e.1 < l.items.length
  holds : ∀ i, l.held = some i → i < l.items.length
  once : l.log.Pairwise fun a b => a.1 = b.1 → final a.2 = false
  waits : ∀ i, l.held = some i → ∀ e ∈ l.log, e.1 = i → final e.2 = false
  ended : ∀ i < l.items.length, l.held ≠ some i → ∃ o, (i, o) ∈ l.log ∧ final o = true

variable {final : O → Bool} {l : Ledger α O}

theorem Accounted.add (accounted : l.Accounted final) (free : l.held = none) (a : α) :
    (l.add a).Accounted final where
  known e member := by
    have before := accounted.known e member
    simp only [Ledger.add, List.length_append, List.length_singleton]
    omega
  holds i held := by
    cases held
    simp only [Ledger.add, List.length_append, List.length_singleton, Nat.lt_add_one]
  once := accounted.once
  waits i held e member same := by
    -- nothing was written about an item before it came
    cases held
    exact absurd (accounted.known e member) (by omega)
  ended i inside other := by
    simp only [Ledger.add, List.length_append, List.length_singleton, ne_eq,
      Option.some.injEq] at inside other
    exact accounted.ended i (by omega) (by simp [free])

theorem Accounted.settle (accounted : l.Accounted final) {o : O} {keep : Bool}
    (agrees : keep = !final o) :
    (l.settle o keep).Accounted final := by
  cases held : l.held with
  | none =>
      simp only [Ledger.settle, held]
      exact accounted
  | some i =>
      have inside := accounted.holds i held
      have waits := accounted.waits i held
      simp only [Ledger.settle, held]
      refine ⟨?_, ?_, ?_, ?_, ?_⟩
      · intro e member
        rcases List.mem_append.mp member with old | last
        · exact accounted.known e old
        · rw [List.mem_singleton.mp last]
          exact inside
      · intro j kept
        split at kept
        · cases kept
          exact inside
        · cases kept
      · refine List.pairwise_append.mpr ⟨accounted.once, List.pairwise_singleton _ _, ?_⟩
        intro a old b last same
        rw [List.mem_singleton.mp last] at same
        exact waits a old same
      · intro j kept e member same
        split at kept
        · rename_i keeping
          cases kept
          rcases List.mem_append.mp member with old | last
          · exact waits e old same
          · rw [List.mem_singleton.mp last]
            simpa [keeping] using agrees
        · cases kept
      · intro j known other
        by_cases own : j = i
        · subst own
          refine ⟨o, List.mem_append_right _ List.mem_cons_self, ?_⟩
          cases keep with
          | true => simp at other
          | false => simpa using agrees
        · obtain ⟨o', written, done⟩ := accounted.ended j known fun same =>
            own (Option.some.inj (same.symm.trans held))
          exact ⟨o', List.mem_append_left _ written, done⟩

theorem heldItem_add (l : Ledger α O) (a : α) : (l.add a).heldItem = some a := by
  simp [heldItem, add]

theorem heldItem_settle (l : Ledger α O) (o : O) (keep : Bool) :
    (l.settle o keep).heldItem = if keep then l.heldItem else none := by
  cases held : l.held with
  | none => simp [heldItem, settle, held]
  | some i => cases keep <;> simp [heldItem, settle, held]

theorem picked_add (known : ∀ e ∈ l.log, e.1 < l.items.length) (a : α) (pick : O → Bool) :
    (l.add a).picked pick = l.picked pick := by
  refine List.filterMap_congr fun e member => ?_
  simp only [add, List.getElem?_append_left (known e member)]

theorem picked_settle {a : α} (held : l.heldItem = some a) (o : O) (keep : Bool)
    (pick : O → Bool) :
    (l.settle o keep).picked pick = l.picked pick ++ if pick o then [a] else [] := by
  obtain ⟨i, own, found⟩ := Option.bind_eq_some_iff.mp held
  simp only [settle, own, picked, List.filterMap_append, List.filterMap_cons,
    List.filterMap_nil, found]
  cases pick o <;> rfl

theorem picked_settle_other (l : Ledger α O) {o : O} {pick : O → Bool} (other : pick o = false)
    (keep : Bool) :
    (l.settle o keep).picked pick = l.picked pick := by
  cases held : l.held with
  | none => simp only [settle, held]
  | some i => simp [settle, held, picked, other]

theorem held_settle_false (l : Ledger α O) (o : O) : (l.settle o false).held = none := by
  cases held : l.held with
  | none => simp only [settle, held]
  | some i => simp [settle, held]

end Ledger
