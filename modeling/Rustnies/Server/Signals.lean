import Rustnies.Server.Effects

/-! # Signals to a task

A task is asked to close through its channel. A signal stays there until the loop takes
it or ends, and a task that has ended needs none.
-/

namespace Rustnies

variable {σ : Type}

namespace Task

/-- A signal waits in the channel, or the loop has ended: a loop that takes a signal
    ends. -/
def Signalled (t : Task σ) : Prop := 0 < t.evictRx ∨ t.running = false

/-- Only a task that has ended is closed. -/
def ClosedEnded (t : Task σ) : Prop := t.closed = true → t.running = false

theorem Signalled.turn {t t' : Task σ} {env : Env} {branch : Branch} (signalled : t.Signalled)
    (turned : t.turn env branch = some t') : t'.Signalled := by
  obtain ⟨running, event, mid, polled, ⟨tunnel, stepped, rfl⟩ | ⟨-, rfl⟩⟩ :=
    turn_cases turned
  · have waiting : 0 < t.evictRx :=
      signalled.resolve_right (by rw [running]; exact Bool.noConfusion)
    rcases (poll_same polled).2.2.1 with same | rfl
    · exact .inl (by simpa only [same] using waiting)
    · have going : t.tunnel.exit.isSome = false := by
        simp only [Task.running, Bool.and_eq_true, Option.isNone_iff_eq_none] at running
        rw [running.1]
        rfl
      simp only [Tunnel.step, going, Bool.false_eq_true, if_false, Tunnel.handleEvent,
        Option.some.injEq] at stepped
      refine .inr ?_
      simp only [Task.running, ← stepped, Tunnel.closeAndExit, Option.isNone_some, Bool.false_and]
  · exact .inr (by simp only [Task.running, Bool.not_true, Bool.and_false])

end Task

section Moves

variable {ctx : ServerCtx σ} {scope : Scope} {t t' : Task σ}

theorem TaskMoves.signalled (moves : TaskMoves ctx scope t t') (signalled : t.Signalled) :
    t'.Signalled := by
  induction moves with
  | refl => exact signalled
  | tail _ move ih =>
      cases move with
      | signal => exact .inl (Nat.succ_pos _)
      | turn _ env branch turned => exact ih.turn turned
      | _ => exact ih

theorem TaskMoves.closedEnded (moves : TaskMoves ctx scope t t') (ended : t.ClosedEnded) :
    t'.ClosedEnded := by
  induction moves with
  | refl => exact ended
  | tail _ move ih =>
      cases move with
      | ended _ done => exact fun _ => done
      | turn _ env branch turned =>
          intro closed
          rw [(Task.turn_same turned).closed] at closed
          exact absurd (ih closed) (by rw [(Task.turn_cases turned).1]; exact Bool.noConfusion)
      | _ => exact ih

end Moves

namespace Server

variable {ctx : ServerCtx σ} {scope : Scope} {s s' : Server σ}

/-- The session at the other end has been asked to close, or it is over. -/
def Signalled (s : Server σ) (i : Nat) : Prop := ∃ t, s.tasks[i]? = some t ∧ t.Signalled

/-- Only tasks that have ended are closed. -/
def ClosedEnded (s : Server σ) : Prop :=
  ∀ (i : Nat) (t : Task σ), s.tasks[i]? = some t → t.ClosedEnded

theorem Signalled.evolves {i : Nat} (signalled : s.Signalled i) (evolves : Evolves ctx scope s s') :
    s'.Signalled i := by
  obtain ⟨t, isTask, asked⟩ := signalled
  obtain ⟨t', isTask', moves⟩ := evolves.tasks isTask
  exact ⟨t', isTask', moves.signalled asked⟩

theorem ClosedEnded.evolves (ended : s.ClosedEnded) (evolves : Evolves ctx scope s s') :
    s'.ClosedEnded := by
  intro i t' isTask
  rcases Nat.lt_or_ge i s.tasks.length with inside | beyond
  · obtain ⟨t'', isTask', moves⟩ := evolves.tasks (List.getElem?_eq_getElem inside)
    cases isTask'.symm.trans isTask
    exact moves.closedEnded (ended i _ (List.getElem?_eq_getElem inside))
  · obtain ⟨env, carrier, resolved, established, moves⟩ := evolves.spawned beyond isTask
    exact moves.closedEnded fun closed => absurd closed (by simp [newTask])

theorem signalEvict_signalled {i : Nat} {t : Task σ} (isTask : s.tasks[i]? = some t)
    (ended : t.ClosedEnded) :
    (s.signalEvict i).Signalled i := by
  refine ⟨if t.closed then t else { t with evictRx := t.evictRx + 1 }, ?_, ?_⟩
  · simp [signalEvict, updateTask, isTask]
  · by_cases closed : t.closed = true
    · rw [if_pos closed]
      exact .inr (ended closed)
    · rw [if_neg closed]
      exact .inl (Nat.succ_pos _)

end Server

end Rustnies
