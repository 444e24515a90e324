import Mathlib.Data.List.Basic

/-! # Runs of a partial step function

A machine is a step function into `Option`: `none` says that the machine cannot
take the step (it has stopped, or the step aborts it). A run feeds it a list of
events. Safety results come from `invariant`: what every step keeps, every run
keeps.
-/

namespace Runs

variable {σ ε : Type} (step : σ → ε → Option σ)

/-- Feed the events one after another. -/
def run (s : σ) (events : List ε) : Option σ := events.foldlM step s

@[simp]
theorem run_nil (s : σ) : run step s [] = some s := rfl

@[simp]
theorem run_cons (s : σ) (e : ε) (events : List ε) :
    run step s (e :: events) = (step s e).bind fun s' => run step s' events := by
  simp only [run, List.foldlM_cons]
  rfl

theorem run_append (s : σ) (left right : List ε) :
    run step s (left ++ right) = (run step s left).bind fun s' => run step s' right := by
  induction left generalizing s with
  | nil => rfl
  | cons e left ih =>
      simp only [List.cons_append, run_cons, ih]
      cases step s e <;> rfl

variable {step}

theorem run_cons_eq_some {s s' : σ} {e : ε} {events : List ε} :
    run step s (e :: events) = some s' ↔ ∃ mid, step s e = some mid ∧
    run step mid events = some s' := by
  rw [run_cons, Option.bind_eq_some_iff]

/-- A view of every step is a view of every run. -/
theorem run_map {τ : Type} {step' : τ → ε → Option τ} {view : σ → τ}
    (each : ∀ s e, step' (view s) e = (step s e).map view) (s : σ) (events : List ε) :
    run step' (view s) events = (run step s events).map view := by
  induction events generalizing s with
  | nil => rfl
  | cons e events ih =>
      rw [run_cons, run_cons, each]
      cases step s e with
      | none => rfl
      | some mid => exact ih mid

/-- What every step keeps, every run keeps. -/
theorem invariant {Inv : σ → Prop} (keeps : ∀ s e s', step s e = some s' → Inv s → Inv s')
    {s s' : σ} {events : List ε} (ran : run step s events = some s') (start : Inv s) :
    Inv s' := by
  induction events generalizing s with
  | nil =>
      cases ran
      exact start
  | cons e events ih =>
      obtain ⟨mid, first, rest⟩ := run_cons_eq_some.mp ran
      exact ih rest (keeps s e mid first start)

/-- What holds after a run and not before it came about with one of its steps. -/
theorem exists_step {P : σ → Prop} {s s' : σ} {events : List ε}
    (ran : run step s events = some s') (before : ¬ P s) (after : P s') :
    ∃ left e right mid mid', events = left ++ e :: right ∧ run step s left = some mid ∧
    ¬ P mid ∧ step mid e = some mid' ∧ P mid' ∧ run step mid' right = some s' := by
  induction events generalizing s with
  | nil =>
      cases ran
      exact absurd after before
  | cons e events ih =>
      obtain ⟨next, first, rest⟩ := run_cons_eq_some.mp ran
      by_cases here : P next
      · exact ⟨[], e, events, s, next, rfl, rfl, before, first, here, rest⟩
      · obtain ⟨left, e', right, mid, mid', rfl, reached, rest⟩ := ih rest here
        exact ⟨e :: left, e', right, mid, mid', rfl,
          run_cons_eq_some.mpr ⟨next, first, reached⟩, rest⟩

/-- Every event of the run meets a condition on the state it finds. -/
def Along (step : σ → ε → Option σ) (Ok : σ → ε → Prop) (s : σ) (events : List ε) :
    Prop :=
  ∀ left e right mid, events = left ++ e :: right → run step s left = some mid → Ok mid e

theorem along_nil (Ok : σ → ε → Prop) (s : σ) : Along step Ok s [] := by
  intro left e right mid split
  simp at split

theorem along_cons {Ok : σ → ε → Prop} {s : σ} {e : ε} {events : List ε} :
    Along step Ok s (e :: events) ↔ Ok s e ∧
    ∀ s', step s e = some s' → Along step Ok s' events := by
  constructor
  · intro along
    refine ⟨along [] e events s rfl rfl, fun s' first left e' right mid split reached => ?_⟩
    refine along (e :: left) e' right mid (by rw [split, List.cons_append]) ?_
    exact run_cons_eq_some.mpr ⟨s', first, reached⟩
  · rintro ⟨now, later⟩ left e' right mid split reached
    cases left with
    | nil =>
        cases split
        cases reached
        exact now
    | cons first left =>
        cases split
        obtain ⟨s', stepped, rest⟩ := run_cons_eq_some.mp reached
        exact later s' stepped left e' right mid rfl rest

theorem along_append {Ok : σ → ε → Prop} {s : σ} {first second : List ε}
    (along : Along step Ok s (first ++ second)) :
    Along step Ok s first ∧ ∀ s', run step s first = some s' → Along step Ok s' second := by
  constructor
  · intro left e right mid split reached
    exact along left e (right ++ second) mid (by simp [split]) reached
  · intro s' ran left e right mid split reached
    refine along (first ++ left) e right mid (by simp [split]) ?_
    rw [run_append, ran]
    exact reached

theorem along_congr (Inv : σ → Prop)
    (keeps : ∀ s e s', step s e = some s' → Inv s → Inv s') {Ok Ok' : σ → ε → Prop}
    (same : ∀ s e, Inv s → (Ok s e ↔ Ok' s e)) {s : σ} (events : List ε) (start : Inv s) :
    Along step Ok s events ↔ Along step Ok' s events := by
  constructor
  · intro along left e right mid split reached
    exact (same mid e (invariant keeps reached start)).mp (along left e right mid split reached)
  · intro along left e right mid split reached
    exact (same mid e (invariant keeps reached start)).mpr (along left e right mid split reached)

theorem along_of_mem {P : ε → Prop} {s : σ} {events : List ε} (each : ∀ e ∈ events, P e) :
    Along step (fun _ e => P e) s events := by
  intro left e right mid split _
  refine each e ?_
  rw [split]
  exact List.mem_append_right left List.mem_cons_self

theorem Along.and_mem {Ok : σ → ε → Prop} {P : ε → Prop} {s : σ} {events : List ε}
    (along : Along step Ok s events) (each : ∀ e ∈ events, P e) :
    Along step (fun mid e => Ok mid e ∧ P e) s events := by
  intro left e right mid split reached
  exact ⟨along left e right mid split reached, along_of_mem each left e right mid split reached⟩

/-- A condition on every event of a run, where it can be evaluated. -/
def checkAlong (step : σ → ε → Option σ) (check : σ → ε → Bool) (s : σ) :
    List ε → Bool
  | [] => true
  | e :: events => check s e && (step s e).all fun s' => checkAlong step check s' events

theorem along_of_check {Ok : σ → ε → Prop} {check : σ → ε → Bool}
    (sound : ∀ s e, check s e = true → Ok s e) {s : σ} {events : List ε}
    (checked : checkAlong step check s events = true) : Along step Ok s events := by
  induction events generalizing s with
  | nil => exact along_nil Ok s
  | cons e events ih =>
      obtain ⟨now, later⟩ := Bool.and_eq_true_iff.mp checked
      refine along_cons.mpr ⟨sound s e now, fun s' stepped => ih ?_⟩
      rwa [stepped, Option.all_some] at later

/-- What every step that meets the condition keeps, a run of such steps keeps. -/
theorem invariant_along (Inv : σ → Prop) {Ok : σ → ε → Prop}
    (keeps : ∀ s e s', Ok s e → step s e = some s' → Inv s → Inv s')
    {s s' : σ} {events : List ε} (along : Along step Ok s events)
    (ran : run step s events = some s') (start : Inv s) : Inv s' := by
  induction events generalizing s with
  | nil =>
      cases ran
      exact start
  | cons e events ih =>
      obtain ⟨mid, first, rest⟩ := run_cons_eq_some.mp ran
      obtain ⟨now, later⟩ := along_cons.mp along
      exact ih (later mid first) rest (keeps s e mid now first start)

end Runs
