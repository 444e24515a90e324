import Rustnies.Client.Reconnect

/-! # Stopping a client

What a request to stop does to the client's loop, whenever it comes. The loop itself
never waits again, and is at its end after two steps at most. A tunnel that runs is told
of the request, unless the request came between the handshake and the start of the
tunnel: then its receiver takes the request for seen, and the session goes on.
-/

namespace Rustnies.ClientLoop

open ClientCtx

variable {τ : Type} {client : ClientCtx τ} {reconnect : Bool} {d d' : ClientLoop τ}
  {events : List ClientEvent}

/-- A step of the loop itself: neither a request nor a turn of the tunnel. -/
def own : ClientEvent → Bool
  | .stop | .turn .. => false
  | _ => true

/-- How many steps of its own the loop has left once the signal is up. -/
def remaining : ClientPhase τ → Nat
  | .connecting | .opening _ => 2
  | .top | .shaking | .running .. | .sleeping .. => 1
  | .returned _ => 0

theorem attemptFailed_up (reconnect : Bool) (up : d.stop.value = true) (reason : Reason) :
    (∃ result, (d.attemptFailed reconnect reason).phase = .returned result) ∧
      (d.attemptFailed reconnect reason).waits = d.waits := by
  unfold attemptFailed
  dsimp only
  split
  · rw [sleepOrStop_stopped (by exact up)]
    exact ⟨⟨_, rfl⟩, rfl⟩
  · exact ⟨⟨_, rfl⟩, rfl⟩

theorem sessionEnded_up (reconnect : Bool) (up : d.stop.value = true) (exit : TunnelExit) :
    (∃ result, (d.sessionEnded reconnect exit).phase = .returned result) ∧
      (d.sessionEnded reconnect exit).waits = d.waits := by
  unfold sessionEnded
  dsimp only
  rw [up, Bool.true_or, if_pos rfl]
  exact ⟨⟨_, rfl⟩, rfl⟩

/-- What is left for a step once the signal is up: the loop leaves, or comes to the next place
    where it looks at the signal, or its tunnel goes on. -/
inductive Winds (d d' : ClientLoop τ) : ClientEvent → Prop
  | stop (same : d'.phase = d.phase) : Winds d d' .stop
  | leaves {e : ClientEvent} {result : ClientResult} (live : 0 < remaining d.phase)
      (returned : d'.phase = .returned result) : Winds d d' e
  | bound (connecting : d.phase = .connecting) (shaking : d'.phase = .shaking) :
      Winds d d' (.carrier (.ok ()))
  | opened {established : SessionEstablished UInt8} {now : Instant} {cfg : Config τ}
      {tunnel : Tunnel τ} (opening : d.phase = .opening established)
      (running : d'.phase = .running cfg tunnel d.stop.version) :
      Winds d d' (.establish now)
  | turned {cfg : Config τ} {tunnel tunnel' : Tunnel τ} {seen seen' : Nat} {env : Env}
      {event : Event} (running : d.phase = .running cfg tunnel seen) (alive : tunnel.exit = none)
      (heard : afterEvent d.stop seen event = some seen')
      (stepped : tunnel.step cfg (env, event) = some tunnel')
      (runs : d'.phase = .running cfg tunnel' seen') : Winds d d' (.turn env event)

/-- With the signal up no attempt is made and no wait begun. -/
theorem Took.winds {e : ClientEvent} (took : Took client reconnect d e d') (signalled : d.Signalled)
    (up : d.stop.value = true) : Winds d d' e ∧ d'.waits = d.waits := by
  have changed : (∀ result, d.phase ≠ .returned result) → d.stop.changed d.seen = true :=
    fun live => (signalled.changed live).trans up
  cases took with
  | stop => exact ⟨.stop rfl, rfl⟩
  | leave top => exact ⟨.leaves (by simp [top, remaining]) rfl, rfl⟩
  | connect top unstopped => exact absurd (unstopped.symm.trans up) Bool.false_ne_true
  | unbound connecting =>
      obtain ⟨⟨result, returned⟩, waits⟩ := attemptFailed_up reconnect up (.bind ‹_›)
      exact ⟨.leaves (by simp [connecting, remaining]) returned, waits⟩
  | bound connecting => exact ⟨.bound connecting rfl, rfl⟩
  | refused shaking unstopped =>
      exact absurd (unstopped.symm.trans (changed (by simp [shaking]))) Bool.false_ne_true
  | shaken shaking unstopped =>
      exact absurd (unstopped.symm.trans (changed (by simp [shaking]))) Bool.false_ne_true
  | unusable opening unbuilt =>
      unfold establish
      rw [unbuilt]
      exact ⟨.leaves (by simp [opening, remaining]) rfl, rfl⟩
  | opened opening built =>
      unfold establish
      rw [built]
      exact ⟨.opened opening rfl, rfl⟩
  | panicked running => exact ⟨.leaves (by simp [running, remaining]) rfl, rfl⟩
  | turned running alive heard stepped => exact ⟨.turned running alive heard stepped rfl, rfl⟩
  | sessionEnds running =>
      obtain ⟨⟨result, returned⟩, waits⟩ := sessionEnded_up reconnect up ‹TunnelExit›
      exact ⟨.leaves (by simp [running, remaining]) returned, waits⟩
  | halted wait =>
      obtain ⟨status, halts⟩ := halt_eq wait up
      rw [halts]
      refine ⟨.leaves ?_ rfl, rfl⟩
      rcases wait with shaking | ⟨dur, failed, sleeping⟩
      · simp [shaking, remaining]
      · simp [sleeping, remaining]
  | elapsed sleeping unstopped =>
      exact absurd (unstopped.symm.trans (changed (by simp [sleeping]))) Bool.false_ne_true

theorem Winds.closer {e : ClientEvent} (winds : Winds d d' e) :
    (if own e then 1 else 0) + remaining d'.phase ≤ remaining d.phase := by
  cases winds with
  | stop same => exact Nat.le_of_eq ((Nat.zero_add _).trans (congrArg remaining same))
  | leaves live returned =>
      rw [returned, show remaining (.returned _ : ClientPhase τ) = 0 from rfl]
      split <;> omega
  | bound connecting shaking => simp [own, connecting, shaking, remaining]
  | opened opening running => simp [own, opening, running, remaining]
  | turned running alive heard stepped runs => simp [own, running, runs, remaining]

theorem run_closer (signalled : d.Signalled) (up : d.stop.value = true)
    (ran : run client reconnect d events = some d') :
    events.countP own + remaining d'.phase ≤ remaining d.phase ∧ d'.waits = d.waits := by
  induction events generalizing d with
  | nil =>
      cases ran
      exact ⟨by simp, rfl⟩
  | cons e events ih =>
      obtain ⟨mid, stepped, rest⟩ := Runs.run_cons_eq_some.mp ran
      have took := step_took stepped
      have stays : mid.stop.value = true := by
        rw [took.stop_eq signalled]
        cases requested e with
        | true => rfl
        | false => exact up
      obtain ⟨winds, waits⟩ := took.winds signalled up
      have closer := winds.closer
      obtain ⟨rest, waits'⟩ := ih (signalled.step took) stays rest
      refine ⟨?_, waits'.trans waits⟩
      rw [List.countP_cons]
      omega

/-- The loop never hangs: where no tunnel runs, some step of its own is open. -/
theorem progress : (∃ result, d.phase = .returned result) ∨
    (∃ cfg tunnel seen, d.phase = .running cfg tunnel seen ∧ tunnel.exit = none) ∨
    ∃ e, own e = true ∧ (step client reconnect d e).isSome = true := by
  cases stands : d.phase with
  | returned result => exact .inl ⟨result, rfl⟩
  | top => exact .inr (.inr ⟨.loopHead, rfl, by simp [step, stands]⟩)
  | connecting => exact .inr (.inr ⟨.carrier (.ok ()), rfl, by simp [step, stands]⟩)
  | opening established => exact .inr (.inr ⟨.establish 0, rfl, by simp [step, stands]⟩)
  | shaking =>
      cases up : d.stop.changed d.seen with
      | true => exact .inr (.inr ⟨.halted, rfl, by simp [step, stands, up]⟩)
      | false =>
          refine .inr (.inr ⟨.handshake fun _ => ⟨[], false, .timedOut⟩, rfl, ?_⟩)
          simp only [step, stands, up, Bool.false_eq_true, if_false]
          split <;> rfl
  | sleeping dur failed =>
      cases up : d.stop.changed d.seen with
      | true => exact .inr (.inr ⟨.halted, rfl, by simp [step, stands, up]⟩)
      | false => exact .inr (.inr ⟨.elapsed, rfl, by simp [step, stands, up]⟩)
  | running cfg tunnel seen =>
      cases ended : tunnel.exit with
      | none => exact .inr (.inl ⟨cfg, tunnel, seen, rfl, ended⟩)
      | some exit => exact .inr (.inr ⟨.sessionEnds, rfl, by simp [step, stands, ended]⟩)

/-! ## Whom the request reaches -/

theorem exit_of_stop {cfg : Config τ} {tunnel tunnel' : Tunnel τ} {env : Env}
    (alive : tunnel.exit = none) (stepped : tunnel.step cfg (env, .stop true) = some tunnel') :
    tunnel'.exit = some .stopped := by
  rw [Tunnel.step_running _ alive] at stepped
  cases stepped
  rfl

theorem afterEvent_cases {c : StopChannel} {seen seen' : Nat} {event : Event}
    (heard : afterEvent c seen event = some seen') :
    seen' = seen ∨ event = .stop c.value ∧ c.changed seen = true := by
  cases event with
  | stop up =>
      simp only [afterEvent] at heard
      split at heard
      · next told => exact .inr ⟨by rw [told.2], told.1⟩
      · cases heard
  | evict => cases heard
  | _ =>
      cases heard
      exact .inl rfl

/-- After a request that the tunnel, if one runs, has not taken: no other tunnel starts. -/
def Pending (version : Nat) (d : ClientLoop τ) : Prop :=
  d.stop.value = true ∧ d.stop.version = version ∧
    match d.phase with
    | .opening _ => False
    | .running _ tunnel seen => tunnel.exit = none → seen ≠ version
    | _ => True

/-- After a request that the receiver of the session's tunnel takes for seen. -/
def Missed (version : Nat) (d : ClientLoop τ) : Prop :=
  d.stop.value = true ∧ d.stop.version = version ∧
    match d.phase with
    | .running _ _ seen => seen = version
    | _ => True

theorem Pending.step {version : Nat} {e : ClientEvent} (signalled : d.Signalled)
    (pending : d.Pending version) (took : Took client reconnect d e d')
    (quiet : requested e = false) : d'.Pending version := by
  obtain ⟨up, same, stands⟩ := pending
  have stop := took.stop_eq signalled
  rw [quiet, if_neg Bool.false_ne_true] at stop
  refine ⟨by rw [stop, up], by rw [stop, same], ?_⟩
  cases (took.winds signalled up).1 with
  | stop => cases quiet
  | leaves _ returned =>
      rw [returned]
      trivial
  | bound _ shaking =>
      rw [shaking]
      trivial
  | opened opening =>
      rw [opening] at stands
      exact stands.elim
  | turned running alive heard stepped runs =>
      rw [running] at stands
      rw [runs]
      intro goesOn
      rcases afterEvent_cases heard with rfl | ⟨rfl, -⟩
      · exact stands alive
      · rw [up] at stepped
        rw [exit_of_stop alive stepped] at goesOn
        cases goesOn

theorem Missed.step {version : Nat} {e : ClientEvent} (signalled : d.Signalled)
    (missed : d.Missed version) (took : Took client reconnect d e d')
    (quiet : requested e = false) : d'.Missed version := by
  obtain ⟨up, same, stands⟩ := missed
  have stop := took.stop_eq signalled
  rw [quiet, if_neg Bool.false_ne_true] at stop
  refine ⟨by rw [stop, up], by rw [stop, same], ?_⟩
  cases (took.winds signalled up).1 with
  | stop => cases quiet
  | leaves _ returned =>
      rw [returned]
      trivial
  | bound _ shaking =>
      rw [shaking]
      trivial
  | opened _ running =>
      rw [running]
      exact same
  | turned running alive heard stepped runs =>
      rw [running] at stands
      rw [runs]
      rcases afterEvent_cases heard with rfl | ⟨-, changed⟩
      · exact stands
      · rw [StopChannel.changed, stands, same, bne_self_eq_false] at changed
        cases changed

theorem run_quiet {Inv : ClientLoop τ → Prop}
    (keeps : ∀ {d e d'}, d.Signalled → Inv d → Took client reconnect d e d' → requested e =
      false → Inv d') (signalled : d.Signalled)
    (quiet : events.all (fun e => !requested e) = true) (start : Inv d)
    (ran : run client reconnect d events = some d') : d'.Signalled ∧ Inv d' := by
  induction events generalizing d with
  | nil =>
      cases ran
      exact ⟨signalled, start⟩
  | cons e events ih =>
      obtain ⟨mid, stepped, rest⟩ := Runs.run_cons_eq_some.mp ran
      have took := step_took stepped
      rw [List.all_cons, Bool.and_eq_true, Bool.not_eq_true'] at quiet
      exact ih (signalled.step took) quiet.2 (keeps signalled start took quiet.1) rest

/-- The version that a tunnel's receiver has seen was one of the channel. -/
def Behind (d : ClientLoop τ) : Prop :=
  match d.phase with
  | .running _ _ seen => seen ≤ d.stop.version
  | _ => True

theorem sleepOrStop_behind (dur : Duration) (failed : Bool) :
    (d.sleepOrStop dur failed).Behind := by
  unfold sleepOrStop
  split <;> trivial

theorem Behind.step {e : ClientEvent} (signalled : d.Signalled) (behind : d.Behind)
    (took : Took client reconnect d e d') : d'.Behind := by
  unfold Behind at behind
  cases took with
  | stop =>
      unfold Behind
      rw [show d.request.phase = d.phase from rfl]
      split at behind
      · exact Nat.le_succ_of_le behind
      · trivial
  | leave | connect | bound | shaken | panicked | elapsed => trivial
  | unbound | refused =>
      unfold attemptFailed
      split
      · exact sleepOrStop_behind _ _
      · trivial
  | unusable | opened =>
      unfold establish
      split
      · trivial
      · exact Nat.le_refl d.stop.version
  | turned running alive heard =>
      rw [running] at behind
      rcases afterEvent_cases heard with rfl | ⟨rfl, changed⟩
      · exact behind
      · simp only [afterEvent, changed, and_self, if_true, Option.some.injEq] at heard
        exact heard ▸ Nat.le_refl d.stop.version
  | sessionEnds =>
      unfold sessionEnded
      dsimp only
      split
      · trivial
      · exact sleepOrStop_behind _ _
  | halted wait stopped =>
      obtain ⟨status, halts⟩ :=
        halt_eq wait ((signalled.changed (live_of_waiting wait)).symm.trans stopped)
      rw [halts]
      trivial

theorem Reachable.behind (reachable : Reachable client reconnect d) : d.Behind :=
  reachable.invariant (fun signalled behind took => behind.step signalled took) trivial

theorem request_pending (behind : d.Behind)
    (elsewhere : ∀ established, d.phase ≠ .opening established) :
    d.request.Pending (d.stop.version + 1) := by
  refine ⟨rfl, rfl, ?_⟩
  unfold Behind at behind
  rw [show d.request.phase = d.phase from rfl]
  split
  · exact elsewhere _ ‹_›
  · next running =>
      rw [running] at behind
      intro _ same
      omega
  · trivial

theorem request_missed {established : SessionEstablished UInt8}
    (opening : d.phase = .opening established) :
    d.request.Missed (d.stop.version + 1) := by
  refine ⟨rfl, rfl, ?_⟩
  rw [show d.request.phase = d.phase from rfl, opening]
  trivial

/-- The signal is one of the events that a running tunnel can get next, if it has changed for
    it. -/
theorem stop_open_iff {cfg : Config τ} {tunnel : Tunnel τ} {seen : Nat} {env : Env}
    (up : d.stop.value = true) (running : d.phase = .running cfg tunnel seen)
    (alive : tunnel.exit = none) :
    (step client reconnect d (.turn env (.stop true))).isSome = true ↔
    d.stop.changed seen = true := by
  cases changed : d.stop.changed seen <;> simp [step, running, turn, alive, afterEvent, changed, up]

/-! ## The results -/

/-- With `reconnect` the daemon goes on until it is asked to stop; nothing that the network or
    the server does makes it give up, except a panic of the tunnel. Without it the daemon
    begins at most one attempt, none if it is asked to stop before, and has returned what
    came of the attempt as soon as that is over. -/
theorem returns_when_told (ran : run client reconnect {} events = some d) :
    (∀ result, d.phase = .returned result → result = .ok ∧ events.any requested = true ∨
      result = .panicked ∨ reconnect = false ∧ ∃ reason, d.attempts = [reason] ∧
      result = reason.result) ∧
    (reconnect = false → events.countP begins ≤ 1 ∧
      (d.attempts = [] ∨ ∃ reason, d.attempts = [reason] ∧
        d.phase = .returned reason.result)) := by
  constructor
  · intro result returned
    have ends := Reachable.ends ⟨events, ran⟩
    have value := run_value init_signalled ran
    unfold Ends at ends
    rw [returned] at ends
    cases result with
    | ok =>
        rcases ends with up | ⟨off, exit, once⟩
        · exact .inl ⟨rfl, by simpa [up] using value.symm⟩
        · exact .inr (.inr ⟨off, .ended exit, once, rfl⟩)
    | failed reason =>
        obtain ⟨off, failure, once⟩ := ends
        exact .inr (.inr ⟨off, reason, once, by rw [Reason.result, failure, if_pos rfl]⟩)
    | profile e => exact ends.elim
    | panicked => exact .inr (.inl rfl)
  · rintro rfl
    obtain ⟨once, few⟩ := run_once init_signalled rfl ran
    refine ⟨Nat.le_trans (Nat.le_add_right _ _) few, ?_⟩
    unfold Once at once
    split at once
    · next result returned =>
        refine once.imp id fun ⟨reason, attempts, same⟩ => ⟨reason, attempts, ?_⟩
        rw [returned, same]
    · exact once.elim
    · exact .inl once

/-- With `reconnect` two attempts fail, and the daemon is asked to stop while it waits.
    Without it the first failure is the last. -/
theorem twoFailures_told :
    (∃ d, run sample true {} (twoFailures ++ [.stop, .halted]) = some d ∧
      d.phase = .returned .ok) ∧
    ∃ d, run sample false {} (twoFailures.take 2) = some d ∧
      d.phase = .returned (.failed (.bind "network is unreachable")) := by
  constructor
  · have evaluated : ((run sample true {} (twoFailures ++ [.stop, .halted])).any fun d =>
        decide (d.phase.result = some .ok)) = true := by decide +kernel
    obtain ⟨d, ran, stands⟩ := (Option.any_eq_true _ _).mp evaluated
    have returned := ClientPhase.returned_of_result (of_decide_eq_true stands)
    rcases (returns_when_told ran).1 .ok returned with ⟨-, -⟩ | panicked | ⟨off, -⟩
    · exact ⟨d, ran, returned⟩
    · cases panicked
    · cases off
  · have evaluated : ((run sample false {} (twoFailures.take 2)).any fun d =>
        decide (d.attempts = [.bind "network is unreachable"])) = true := by decide +kernel
    obtain ⟨d, ran, stands⟩ := (Option.any_eq_true _ _).mp evaluated
    rcases ((returns_when_told ran).2 rfl).2 with none | ⟨reason, once, returned⟩
    · rw [of_decide_eq_true stands] at none
      cases none
    · rw [of_decide_eq_true stands] at once
      cases once
      exact ⟨d, ran, returned⟩

/-- Whenever the daemon is asked to stop, its loop begins no other wait and takes at most two
    more steps of its own, and none is missing: it has returned, or one of them is open, or
    a tunnel runs. -/
theorem request_ends (reachable : Reachable client reconnect d)
    (ran : run client reconnect d.request events = some d') :
    events.countP own ≤ 2 ∧ d'.waits = d.waits ∧
      ((∃ result, d'.phase = .returned result) ∨
        (∃ cfg tunnel seen, d'.phase = .running cfg tunnel seen ∧ tunnel.exit = none) ∨
        ∃ e, own e = true ∧ (step client reconnect d' e).isSome = true) := by
  obtain ⟨closer, waits⟩ := run_closer reachable.signalled.request rfl ran
  have most : remaining d.request.phase ≤ 2 := by
    cases d.request.phase <;> simp [remaining]
  exact ⟨by omega, waits, progress⟩

theorem twoFailures_ends : ∃ d d', run sample true {} twoFailures = some d ∧
    run sample true d.request [.halted] = some d' ∧ d'.waits = [1000000000, 2000000000] := by
  have evaluated : ((run sample true {} twoFailures).any fun d =>
      decide (d.waits = [1000000000, 2000000000]) && (run sample true d.request [.halted]).isSome) =
        true := by
    decide +kernel
  obtain ⟨d, ran, checked⟩ := (Option.any_eq_true _ _).mp evaluated
  obtain ⟨waits, more⟩ := (Bool.and_eq_true _ _).mp checked
  obtain ⟨d', halts⟩ := Option.isSome_iff_exists.mp more
  exact ⟨d, d', ran, halts, (request_ends ⟨_, ran⟩ halts).2.1.trans
    (of_decide_eq_true waits)⟩

/-- A tunnel that still runs after a request can be told of it exactly if the request did not
    come while the session was being set up: between the handshake and the start of the
    tunnel's loop, whose receiver takes what was sent before for seen. -/
theorem request_reaches_iff (reachable : Reachable client reconnect d)
    (quiet : events.all (fun e => !requested e) = true)
    (ran : run client reconnect d.request events = some d') {cfg : Config τ} {tunnel : Tunnel τ}
    {seen : Nat} (running : d'.phase = .running cfg tunnel seen) (alive : tunnel.exit = none)
    (env : Env) :
    (step client reconnect d' (.turn env (.stop true))).isSome = true ↔
      ∀ established, d.phase ≠ .opening established := by
  have signalled := reachable.signalled.request
  constructor
  · intro told established opening
    obtain ⟨-, up, same, stands⟩ :=
      run_quiet (fun signalled missed => missed.step signalled) signalled quiet
      (request_missed opening) ran
    rw [running] at stands
    have changed := (stop_open_iff up running alive).mp told
    rw [StopChannel.changed, stands, same, bne_self_eq_false] at changed
    cases changed
  · intro elsewhere
    obtain ⟨-, up, same, stands⟩ :=
      run_quiet (fun signalled pending => pending.step signalled) signalled quiet
      (request_pending reachable.behind elsewhere) ran
    rw [running] at stands
    refine (stop_open_iff up running alive).mpr ?_
    rw [StopChannel.changed, same]
    exact bne_iff_ne.mpr (stands alive).symm

/-- The server's reply to the client's first message. -/
def sampleReply : Bytes :=
  ((Server.respond sampleServer (.small 1 5) (Server.init 0 .openMode : Server Unit)
    (sample.envelope sampleMessage1) ⟨.v4 9, 1⟩).map Prod.snd).getD []

def shaken : List ClientEvent :=
  [.loopHead, .carrier (.ok ()), .handshake fun _ =>
    ⟨[3], true, .message sampleReply sample.call.server⟩]

/-- The request comes right after the handshake, and the tunnel goes on without it. -/
theorem shaken_unreached : ∃ d d', run sample true {} shaken = some d ∧
    run sample true d.request [.establish 2, .turn (.small 3) .ping] = some d' ∧
    (step sample true d' (.turn (.small 4) (.stop true))).isSome = false := by
  have evaluated : ((run sample true {} shaken).any fun d => d.phase.established.isSome &&
      (run sample true d.request [.establish 2, .turn (.small 3) .ping]).any fun d' =>
        d'.phase.tunnel.any fun tunnel => tunnel.exit.isNone) = true := by decide +kernel
  obtain ⟨d, ran, checked⟩ := (Option.any_eq_true _ _).mp evaluated
  obtain ⟨opened, checked⟩ := (Bool.and_eq_true _ _).mp checked
  obtain ⟨established, isEstablished⟩ := Option.isSome_iff_exists.mp opened
  obtain ⟨d', more, checked⟩ := (Option.any_eq_true _ _).mp checked
  obtain ⟨tunnel, isTunnel, alive⟩ := (Option.any_eq_true _ _).mp checked
  obtain ⟨cfg, seen, running⟩ := ClientPhase.running_of_tunnel isTunnel
  refine ⟨d, d', ran, more, eq_false_of_ne_true fun told => ?_⟩
  exact (request_reaches_iff ⟨_, ran⟩ rfl more running (Option.isNone_iff_eq_none.mp alive)
    _).mp told established (ClientPhase.opening_of_established isEstablished)

end Rustnies.ClientLoop
