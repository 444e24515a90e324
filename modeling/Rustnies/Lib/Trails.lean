/-! # Trails of a relation that notes what it does

A big operation is a sequence of small moves, some of which leave a note. What every
small move keeps, of a state and of the notes so far, the operation keeps.
-/

/-- Some moves one after another, with their notes in order. -/
inductive Trail {σ ν : Type} (move : σ → List ν → σ → Prop) :
    σ → List ν → σ → Prop where
  | refl (s : σ) : Trail move s [] s
  | cons {s mid s' : σ} {notes notes' : List ν} (first : move s notes mid)
      (rest : Trail move mid notes' s') :
      Trail move s (notes ++ notes') s'

namespace Trail

variable {σ ν : Type} {move : σ → List ν → σ → Prop} {s mid s' : σ}
  {notes notes' : List ν}

theorem single (moves : move s notes s') : Trail move s notes s' := by
  have alone := cons moves (refl s')
  rwa [List.append_nil] at alone

theorem trans (first : Trail move s notes mid) (second : Trail move mid notes' s') :
    Trail move s (notes ++ notes') s' := by
  induction first with
  | refl s => exact second
  | cons moves _ ih =>
      rw [List.append_assoc]
      exact cons moves (ih second)

theorem quietly (first : Trail move s [] mid) (second : Trail move mid notes s') :
    Trail move s notes s' :=
  first.trans second

theorem ite {c : Prop} [Decidable c] {yes no : σ} (first : Trail move s notes yes)
    (second : Trail move s notes no) :
    Trail move s notes (if c then yes else no) := by
  split
  · exact first
  · exact second

/-- What every move keeps, a trail keeps. -/
theorem invariant (Inv : σ → List ν → Prop)
    (keeps : ∀ s notes s' old, move s notes s' → Inv s old → Inv s' (old ++ notes))
    (trail : Trail move s notes s') {old : List ν} (start : Inv s old) :
    Inv s' (old ++ notes) := by
  induction trail generalizing old with
  | refl s =>
      rw [List.append_nil]
      exact start
  | cons moves _ ih =>
      rw [← List.append_assoc]
      exact ih (keeps _ _ _ _ moves start)

theorem preserves (Inv : σ → Prop) (keeps : ∀ s notes s', move s notes s' → Inv s → Inv s')
    (trail : Trail move s notes s') (start : Inv s) : Inv s' :=
  @invariant σ ν move s s' notes (fun s _ => Inv s) (fun s notes s' _ => keeps s notes s')
    trail [] start

end Trail
