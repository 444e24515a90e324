import Rustnies.Framing
import Rustnies.Server.Sessions

/-! # Messages on a connection

`dispatch_connection` reads message 1 and gives the connection to the session it
creates. What the client sends afterwards stays on the connection: the tunnel takes
its datagrams from the channel that the dispatcher feeds, and the dispatcher feeds
it from the socket of a datagram server only.
-/

namespace Rustnies

/-- What the client has sent on a connection. -/
def arrivedOn (connection : Nat) (events : List ServerEvent) : Bytes :=
  events.flatMap fun
    | .bytes i chunk => if i = connection then chunk else []
    | _ => []

/-- The complete messages of a connection after its first. -/
def laterMessages (connection : Nat) (events : List ServerEvent) : List Bytes :=
  (streamMessages (arrivedOn connection events)).drop 1

variable {σ : Type} {ctx : ServerCtx σ}

/-- A stream server puts nothing into a task's input channel. -/
theorem TaskMoves.handed_of_tcp {scope : Scope} {t t' : Task σ} (moves : TaskMoves ctx scope t t')
    (tcp : ctx.carrier = .tcp) :
    t'.handed = t.handed := by
  induction moves with
  | refl => rfl
  | tail _ move ih =>
      rw [← ih]
      cases move with
      | handed udp =>
          rw [tcp] at udp
          cases udp
      | turn _ env branch turned => exact (Task.turn_same turned).handed
      | _ => rfl

namespace Server

variable {s s' : Server σ}

theorem handed_of_tcp (tcp : ctx.carrier = .tcp) {now : Instant} {peerAuth : PeerAuth}
    {events : List ServerEvent} (ran : Runs.run (step ctx) (init now peerAuth) events = some s)
    {i : Nat} {t : Task σ} (isTask : s.tasks[i]? = some t) : t.handed = [] := by
  obtain ⟨env, carrier, resolved, established, moves⟩ :=
    (run_evolves ctx _ ran).spawned (Nat.zero_le i) isTask
  exact moves.handed_of_tcp tcp

/-- The task runs the session that a message 1 on the connection created. -/
def RunsOn (s : Server σ) (i connection : Nat) : Prop :=
  ∃ t, s.tasks[i]? = some t ∧ t.carrier = .connection connection

/-- From this state on, some order of events hands the messages to the task, in
    order. -/
def HandsOver (ctx : ServerCtx σ) (s : Server σ) (i : Nat) (messages : List Bytes) : Prop :=
  ∃ events s' t, Runs.run (step ctx) s events = some s' ∧ s'.tasks[i]? = some t ∧
    messages <+: t.handed.map Prod.fst

theorem HandsOver.eq_nil (tcp : ctx.carrier = .tcp) {now : Instant} {peerAuth : PeerAuth}
    {events : List ServerEvent} (ran : Runs.run (step ctx) (init now peerAuth) events = some s)
    {i : Nat} {messages : List Bytes} (handsOver : HandsOver ctx s i messages) : messages = [] := by
  obtain ⟨more, s', t', continued, isTask', handed⟩ := handsOver
  have whole : Runs.run (step ctx) (init now peerAuth) (events ++ more) = some s' := by
    rw [Runs.run_append, ran]
    exact continued
  rw [handed_of_tcp tcp whole isTask', List.map_nil] at handed
  exact List.prefix_nil.mp handed

/-- Whatever happens next, a session on a connection is handed what its client sent
    after message 1 exactly when that is nothing. -/
theorem handsOver_iff_no_later_message (tcp : ctx.carrier = .tcp) {now : Instant}
    {peerAuth : PeerAuth} {events : List ServerEvent}
    (ran : Runs.run (step ctx) (init now peerAuth) events = some s) {i connection : Nat}
    (runsOn : s.RunsOn i connection) :
    HandsOver ctx s i (laterMessages connection events) ↔
    laterMessages connection events = [] := by
  constructor
  · exact HandsOver.eq_nil tcp ran
  · intro none
    obtain ⟨t, isTask, -⟩ := runsOn
    rw [none]
    exact ⟨[], s, t, rfl, isTask, List.nil_prefix⟩

/-- A client connects, sends message 1 and then the given bytes. -/
def streamClient (more : Bytes) : List ServerEvent :=
  [.dispatcher (.small 1 5) (.connection ⟨.v4 1, 1⟩),
    .bytes 0 (be16 80 ++ smallMessage1 9 3 ++ more),
    .dispatcher (.small 2 5) (.resume STREAM_CHUNK),
    .dispatcher (.small 2 5) (.resume STREAM_CHUNK)]

theorem streamClient_runsOn (more : Bytes)
    (evaluated :
      (Runs.run (step (ServerCtx.small .tcp 0)) (init 0 .openMode) (streamClient more)).any
      (fun s =>
      s.tasks[0]?.any fun t => t.running && t.carrier == .connection 0) = true) :
    ∃ s, Runs.run (step (ServerCtx.small .tcp 0)) (init 0 .openMode)
    (streamClient more) = some s ∧ s.RunsOn 0 0 := by
  obtain ⟨s, ran, found⟩ := (Option.any_eq_true _ _).mp evaluated
  obtain ⟨t, isTask, running⟩ := (Option.any_eq_true _ _).mp found
  exact ⟨s, ran, t, isTask, eq_of_beq (Bool.and_eq_true_iff.mp running).2⟩

/-- The session runs, and a message that follows message 1 never reaches it. -/
theorem streamClient_message_lost :
    ∃ s, Runs.run (step (ServerCtx.small .tcp 0)) (init 0 .openMode)
        (streamClient (be16 3 ++ [1, 2, 3])) = some s ∧ s.RunsOn 0 0 ∧
      laterMessages 0 (streamClient (be16 3 ++ [1, 2, 3])) = [[1, 2, 3]] ∧
      ¬ HandsOver (ServerCtx.small .tcp 0) s 0
        (laterMessages 0 (streamClient (be16 3 ++ [1, 2, 3]))) := by
  obtain ⟨s, ran, runsOn⟩ := streamClient_runsOn (be16 3 ++ [1, 2, 3]) (by decide)
  have later : laterMessages 0 (streamClient (be16 3 ++ [1, 2, 3])) = [[1, 2, 3]] := by decide
  refine ⟨s, ran, runsOn, later, fun handsOver => ?_⟩
  cases later.symm.trans (HandsOver.eq_nil rfl ran handsOver)

/-- A client that sends nothing after message 1 loses nothing. -/
theorem streamClient_silent :
    ∃ s, Runs.run (step (ServerCtx.small .tcp 0)) (init 0 .openMode)
    (streamClient []) = some s ∧ s.RunsOn 0 0 ∧ HandsOver (ServerCtx.small .tcp 0) s 0
    (laterMessages 0 (streamClient [])) := by
  obtain ⟨s, ran, runsOn⟩ := streamClient_runsOn [] (by decide)
  have silent : laterMessages 0 (streamClient []) = [] := by decide
  exact ⟨s, ran, runsOn, (handsOver_iff_no_later_message rfl ran runsOn).mpr silent⟩

end Server

end Rustnies
