import Rustnies.Client.Session

/-! # The life of a client

`daemon/mod.rs`: the reconnection loop of `run_client`. It opens a carrier, shakes hands,
runs a tunnel until that ends, and starts again after a wait that grows with every
failure, until the stop signal ends it. The signal is a watch channel, so that a receiver
hears only of what was sent after it last looked.
-/

namespace Rustnies

variable {τ : Type}

def RECONNECT_INITIAL_BACKOFF : Duration := 1000000000
def RECONNECT_MAX_BACKOFF : Duration := 30000000000

/-- The channel of the stop signal: its value, and how often it was sent. -/
structure StopChannel where
  value : Bool := false
  version : Nat := 0

namespace StopChannel

def send (c : StopChannel) (value : Bool) : StopChannel := ⟨value, c.version + 1⟩

/-- Whether `changed` returns for a receiver that has seen the version. -/
def changed (c : StopChannel) (seen : Nat) : Bool := c.version != seen

end StopChannel

/-- Why a connection attempt is over; `last_error` is its text. -/
inductive Reason where
  | bind (error : String)
  | handshake (e : ClientError)
  | ended (exit : TunnelExit)
  deriving Repr, DecidableEq

/-- What the loop publishes for `status`. -/
structure ClientStatus where
  connected : Bool := false
  reconnecting : Bool := false
  reconnectAttempts : UInt32 := 0
  lastError : Option Reason := none

/-- What `run_client` returns. -/
inductive ClientResult where
  | ok
  | failed (reason : Reason)
  | profile (e : ProfileError)
  | panicked
  deriving Repr, DecidableEq

/-- Where the loop stands. -/
inductive ClientPhase (τ : Type) where
  | top
  /-- `connect_carrier` is awaited. -/
  | connecting
  /-- The handshake and the stop signal are awaited. -/
  | shaking
  /-- The handshake has returned, and the tunnel does not run yet. -/
  | opening (established : SessionEstablished UInt8)
  /-- The tunnel runs, with the version of the signal that its receiver has seen. -/
  | running (cfg : Config τ) (tunnel : Tunnel τ) (seen : Nat)
  /-- `sleep_or_stop`, after a failure or after a session. -/
  | sleeping (dur : Duration) (failed : Bool)
  | returned (result : ClientResult)

namespace ClientPhase

def result : ClientPhase τ → Option ClientResult
  | .returned result => some result
  | _ => none

def established : ClientPhase τ → Option (SessionEstablished UInt8)
  | .opening established => some established
  | _ => none

def tunnel : ClientPhase τ → Option (Tunnel τ)
  | .running _ tunnel _ => some tunnel
  | _ => none

variable {p : ClientPhase τ}

theorem returned_of_result {result : ClientResult} (isResult : p.result = some result) :
    p = .returned result := by
  cases p with
  | returned _ =>
      cases isResult
      rfl
  | _ => cases isResult

theorem opening_of_established {established : SessionEstablished UInt8}
    (is : p.established = some established) :
    p = .opening established := by
  cases p with
  | opening _ =>
      cases is
      rfl
  | _ => cases is

theorem running_of_tunnel {tunnel : Tunnel τ} (isTunnel : p.tunnel = some tunnel) :
    ∃ cfg seen, p = .running cfg tunnel seen := by
  cases p with
  | running cfg _ seen =>
      cases isTunnel
      exact ⟨cfg, seen, rfl⟩
  | _ => cases isTunnel

end ClientPhase

/-- The state of `run_client`, with how its attempts ended and how long it waited after them. -/
structure ClientLoop (τ : Type) where
  stop : StopChannel := {}
  seen : Nat := 0
  backoff : Duration := RECONNECT_INITIAL_BACKOFF
  status : ClientStatus := {}
  phase : ClientPhase τ := .top
  attempts : List Reason := []
  waits : List Duration := []

inductive ClientEvent where
  /-- Ctrl+C, or `Stop` over IPC. -/
  | stop
  | loopHead
  | carrier (result : Except String Unit)
  | handshake (attempts : Nat → Attempt UInt8)
  | establish (now : Instant)
  | turn (env : Env) (event : Event)
  | sessionEnds
  /-- The stop signal wakes the loop. -/
  | halted
  | elapsed

namespace ClientLoop

variable (client : ClientCtx τ) (reconnect : Bool)

/-- The operator asks the daemon to stop. -/
def request (d : ClientLoop τ) : ClientLoop τ := { d with stop := d.stop.send true }

/-- `sleep_or_stop`, as far as where it waits. -/
def sleepOrStop (d : ClientLoop τ) (dur : Duration) (failed : Bool) : ClientLoop τ :=
  if d.stop.value then { d with phase := .returned .ok }
  else { d with phase := .sleeping dur failed, waits := d.waits ++ [dur] }

/-- What a failed attempt or a lost session is published as. -/
def retrying (status : ClientStatus) (reason : Reason) : ClientStatus := { status with
  reconnecting := true
  reconnectAttempts := Tunnel.saturatingSucc status.reconnectAttempts
  lastError := some reason }

def attemptFailed (d : ClientLoop τ) (reason : Reason) : ClientLoop τ :=
  let d := { d with status := retrying d.status reason, attempts := d.attempts ++ [reason] }
  if reconnect then d.sleepOrStop d.backoff true else { d with phase := .returned (.failed reason) }

/-- From the handshake's result to the start of the tunnel's loop, which subscribes to the
    signal as it then is. -/
def establish (d : ClientLoop τ) (now : Instant) (established : SessionEstablished UInt8) :
    ClientLoop τ :=
  let status := { d.status with reconnecting := false, reconnectAttempts := 0, lastError := none }
  let d := { d with backoff := RECONNECT_INITIAL_BACKOFF, status := status }
  match client.newTunnel now established with
  | .error e => { d with phase := .returned (.profile e) }
  | .ok (cfg, tunnel) =>
      { d with status := { status with connected := true }, phase :=
        .running cfg tunnel d.stop.version }

def sessionEnded (d : ClientLoop τ) (exit : TunnelExit) : ClientLoop τ :=
  let down := { d.status with connected := false }
  let status := if exit = .stopped ∨ d.stop.value = true
    then { down with reconnecting := false, lastError := none }
    else retrying down (.ended exit)
  let d := { d with status := status, attempts := d.attempts ++ [Reason.ended exit] }
  if d.stop.value || !reconnect then { d with phase := .returned .ok }
  else d.sleepOrStop RECONNECT_INITIAL_BACKOFF false

/-- The wait is over. -/
def wake (d : ClientLoop τ) (failed : Bool) : ClientLoop τ :=
  { d with phase := .top, backoff := if failed then min (d.backoff * 2) RECONNECT_MAX_BACKOFF
    else d.backoff }

/-- The version that the tunnel's receiver has seen after the event; `none` is an event that
    the client's tunnel does not get: the signal unless it has changed, and no eviction. -/
def afterEvent (c : StopChannel) (seen : Nat) : Event → Option Nat
  | .stop requested => if c.changed seen ∧ requested = c.value then some c.version else none
  | .evict => none
  | _ => some seen

/-- A turn of the tunnel's loop. The tunnel runs in the daemon's own task, and takes it down
    when it panics. -/
def turn (d : ClientLoop τ) (cfg : Config τ) (tunnel : Tunnel τ) (seen : Nat) (env : Env)
    (event : Event) :
    Option (ClientLoop τ) :=
  if tunnel.exit.isSome then none
  else (afterEvent d.stop seen event).map fun seen =>
    match tunnel.step cfg (env, event) with
    | none => { d with phase := .returned .panicked }
    | some tunnel =>
        { d with phase := .running cfg tunnel seen, status :=
          { d.status with connected := tunnel.exit.isNone } }

/-- The branch of the signal in a `select!` of the loop. -/
def halt (d : ClientLoop τ) : ClientLoop τ :=
  let d := { d with seen := d.stop.version }
  match d.phase with
  | .shaking => { d with status := { d.status with reconnecting := false }, phase := .returned .ok }
  | .sleeping _ failed => if d.stop.value then { d with phase := .returned .ok } else d.wake failed
  | _ => d

/-- One step; `none` is one that the loop does not take. Both its `select!`s are biased: the
    other branch is taken only while the signal has not changed. -/
def step (d : ClientLoop τ) (e : ClientEvent) : Option (ClientLoop τ) :=
  match e, d.phase with
  | .stop, _ => some d.request
  | .loopHead, .top => some { d with phase := if d.stop.value then .returned .ok else .connecting }
  | .carrier (.error e), .connecting => some (d.attemptFailed reconnect (.bind e))
  | .carrier (.ok ()), .connecting => some { d with phase := .shaking }
  | .handshake attempts, .shaking =>
      if d.stop.changed d.seen then none
      else match (client.call.client attempts).2 with
        | .error e => some (d.attemptFailed reconnect (.handshake e))
        | .ok established => some { d with phase := .opening established }
  | .establish now, .opening established => some (d.establish client now established)
  | .turn env event, .running cfg tunnel seen => d.turn cfg tunnel seen env event
  | .sessionEnds, .running _ tunnel _ => tunnel.exit.map fun exit => d.sessionEnded reconnect exit
  | .halted, .shaking | .halted, .sleeping .. => if d.stop.changed d.seen then some d.halt else none
  | .elapsed, .sleeping _ failed => if d.stop.changed d.seen then none else some (d.wake failed)
  | _, _ => none

abbrev run (d : ClientLoop τ) (events : List ClientEvent) : Option (ClientLoop τ) :=
  Runs.run (step client reconnect) d events

/-- Where some run from the start of the daemon leads. -/
def Reachable (d : ClientLoop τ) : Prop := ∃ events, run client reconnect {} events = some d

/-! ## What a step does -/

variable {client : ClientCtx τ} {reconnect : Bool} {d d' : ClientLoop τ}

/-- The steps, by where the loop stands. -/
inductive Took (client : ClientCtx τ) (reconnect : Bool) (d : ClientLoop τ) :
    ClientEvent → ClientLoop τ → Prop
  | stop : Took client reconnect d .stop d.request
  | leave (top : d.phase = .top) (stopped : d.stop.value = true) :
      Took client reconnect d .loopHead { d with phase := .returned .ok }
  | connect (top : d.phase = .top) (unstopped : d.stop.value = false) :
      Took client reconnect d .loopHead { d with phase := .connecting }
  | unbound {e : String} (connecting : d.phase = .connecting) :
      Took client reconnect d (.carrier (.error e)) (d.attemptFailed reconnect (.bind e))
  | bound (connecting : d.phase = .connecting) : Took client reconnect d (.carrier (.ok ()))
      { d with phase := .shaking }
  | refused {attempts : Nat → Attempt UInt8} {e : ClientError} (shaking : d.phase = .shaking)
      (unstopped : d.stop.changed d.seen = false)
        (failed : (client.call.client attempts).2 = .error e) :
      Took client reconnect d (.handshake attempts) (d.attemptFailed reconnect (.handshake e))
  | shaken {attempts : Nat → Attempt UInt8} {established : SessionEstablished UInt8}
      (shaking : d.phase = .shaking) (unstopped : d.stop.changed d.seen = false)
      (done : (client.call.client attempts).2 = .ok established) :
      Took client reconnect d (.handshake attempts) { d with phase := .opening established }
  | unusable {established : SessionEstablished UInt8} {now : Instant} {e : ProfileError}
      (opening : d.phase = .opening established)
        (unbuilt : client.newTunnel now established = .error e) :
      Took client reconnect d (.establish now) (d.establish client now established)
  | opened {established : SessionEstablished UInt8} {now : Instant} {cfg : Config τ}
      {tunnel : Tunnel τ} (opening : d.phase = .opening established)
      (built : client.newTunnel now established = .ok (cfg, tunnel)) :
      Took client reconnect d (.establish now) (d.establish client now established)
  | panicked {cfg : Config τ} {tunnel : Tunnel τ} {seen : Nat} {env : Env} {event : Event}
      (running : d.phase = .running cfg tunnel seen) :
      Took client reconnect d (.turn env event) { d with phase := .returned .panicked }
  | turned {cfg : Config τ} {tunnel tunnel' : Tunnel τ} {seen seen' : Nat} {env : Env}
      {event : Event} (running : d.phase = .running cfg tunnel seen) (alive : tunnel.exit = none)
      (heard : afterEvent d.stop seen event = some seen')
      (stepped : tunnel.step cfg (env, event) = some tunnel') :
      Took client reconnect d (.turn env event)
        { d with phase := .running cfg tunnel' seen', status :=
          { d.status with connected := tunnel'.exit.isNone } }
  | sessionEnds {cfg : Config τ} {tunnel : Tunnel τ} {seen : Nat} {exit : TunnelExit}
      (running : d.phase = .running cfg tunnel seen) (ended : tunnel.exit = some exit) :
      Took client reconnect d .sessionEnds (d.sessionEnded reconnect exit)
  | halted (waiting : d.phase = .shaking ∨ ∃ dur failed, d.phase = .sleeping dur failed)
      (stopped : d.stop.changed d.seen = true) : Took client reconnect d .halted d.halt
  | elapsed {dur : Duration} {failed : Bool} (sleeping : d.phase = .sleeping dur failed)
      (unstopped : d.stop.changed d.seen = false) : Took client reconnect d .elapsed (d.wake failed)

theorem turn_took {cfg : Config τ} {tunnel : Tunnel τ} {seen : Nat} {env : Env} {event : Event}
    (running : d.phase = .running cfg tunnel seen)
    (turned : d.turn cfg tunnel seen env event = some d') :
    Took client reconnect d (.turn env event) d' := by
  cases alive : tunnel.exit with
  | some exit => simp [turn, alive] at turned
  | none =>
      simp only [turn, alive, Option.isSome_none, Bool.false_eq_true, if_false] at turned
      obtain ⟨seen', heard, rfl⟩ := Option.map_eq_some_iff.mp turned
      cases stepped : tunnel.step cfg (env, event) with
      | none => exact .panicked running
      | some tunnel' => exact .turned running alive heard stepped

theorem step_took {e : ClientEvent} (stepped : step client reconnect d e = some d') :
    Took client reconnect d e d' := by
  unfold step at stepped
  split at stepped
  case h_1 =>
    cases stepped
    exact .stop
  case h_2 top =>
    cases stopped : d.stop.value with
    | true =>
        simp only [stopped, if_true] at stepped
        cases stepped
        exact .leave top stopped
    | false =>
        simp only [stopped, Bool.false_eq_true, if_false] at stepped
        cases stepped
        exact .connect top stopped
  case h_3 connecting =>
    cases stepped
    exact .unbound connecting
  case h_4 connecting =>
    cases stepped
    exact .bound connecting
  case h_5 attempts shaking =>
    split at stepped
    · cases stepped
    · next unstopped =>
        replace unstopped := eq_false_of_ne_true unstopped
        split at stepped
        · next failed =>
            cases stepped
            exact .refused shaking unstopped failed
        · next done =>
            cases stepped
            exact .shaken shaking unstopped done
  case h_6 now established opening =>
    cases stepped
    cases built : client.newTunnel now established with
    | error e => exact .unusable opening built
    | ok pair => exact .opened opening built
  case h_7 running => exact turn_took running stepped
  case h_8 running =>
    obtain ⟨exit, ended, rfl⟩ := Option.map_eq_some_iff.mp stepped
    exact .sessionEnds running ended
  case h_9 shaking =>
    split at stepped
    · next stopped =>
        cases stepped
        exact .halted (.inl shaking) stopped
    · cases stepped
  case h_10 sleeping =>
    split at stepped
    · next stopped =>
        cases stepped
        exact .halted (.inr ⟨_, _, sleeping⟩) stopped
    · cases stepped
  case h_11 sleeping =>
    split at stepped
    · cases stepped
    · next unstopped =>
        cases stepped
        exact .elapsed sleeping (eq_false_of_ne_true unstopped)
  case h_12 => cases stepped

/-! ## The signal -/

/-- The value says whether the signal was ever sent, and the loop's own receiver has seen
    nothing of it as long as the loop goes on. -/
structure Signalled (d : ClientLoop τ) : Prop where
  value : d.stop.value = decide (0 < d.stop.version)
  seen : (∀ result, d.phase ≠ .returned result) → d.seen = 0

theorem Signalled.changed (signalled : d.Signalled)
    (live : ∀ result, d.phase ≠ .returned result) :
    d.stop.changed d.seen = d.stop.value := by
  rw [StopChannel.changed, signalled.seen live, signalled.value]
  cases d.stop.version <;> rfl

theorem live_of_waiting
    (waiting : d.phase = .shaking ∨ ∃ dur failed, d.phase = .sleeping dur failed) :
    ∀ result, d.phase ≠ .returned result := by
  rcases waiting with shaking | ⟨dur, failed, sleeping⟩
  · simp [shaking]
  · simp [sleeping]

theorem halt_eq (waiting : d.phase = .shaking ∨ ∃ dur failed, d.phase = .sleeping dur failed)
    (stopped : d.stop.value = true) : ∃ status, d.halt = { d with
      seen := d.stop.version
      status := status
      phase := .returned .ok } := by
  rcases waiting with shaking | ⟨dur, failed, sleeping⟩
  · exact ⟨_, by simp only [halt, shaking]; rfl⟩
  · exact ⟨d.status, by simp only [halt, sleeping, stopped, if_true]⟩

theorem sleepOrStop_stopped (stopped : d.stop.value = true) (dur : Duration) (failed : Bool) :
    d.sleepOrStop dur failed = { d with phase := .returned .ok } := if_pos stopped

theorem sleepOrStop_unstopped (unstopped : d.stop.value = false) (dur : Duration) (failed : Bool) :
    d.sleepOrStop dur failed = { d with phase := .sleeping dur failed, waits :=
      d.waits ++ [dur] } := by
  rw [sleepOrStop, unstopped, if_neg Bool.false_ne_true]

/-- Nobody but the operator writes to the channel, and nobody but the loop reads its own end
    of it. -/
structure SameSignal (d d' : ClientLoop τ) : Prop where
  stop : d'.stop = d.stop
  seen : d'.seen = d.seen

theorem sleepOrStop_signal (d : ClientLoop τ) (dur : Duration) (failed : Bool) :
    d.SameSignal (d.sleepOrStop dur failed) := by
  unfold sleepOrStop
  split <;> exact ⟨rfl, rfl⟩

theorem attemptFailed_signal (d : ClientLoop τ) (reason : Reason) :
    d.SameSignal (d.attemptFailed reconnect reason) := by
  unfold attemptFailed
  split
  · exact ⟨(sleepOrStop_signal ..).stop, (sleepOrStop_signal ..).seen⟩
  · exact ⟨rfl, rfl⟩

theorem establish_signal (d : ClientLoop τ) (now : Instant)
    (established : SessionEstablished UInt8) :
    d.SameSignal (d.establish client now established) := by
  unfold establish
  split <;> exact ⟨rfl, rfl⟩

theorem sessionEnded_signal (d : ClientLoop τ) (exit : TunnelExit) :
    d.SameSignal (d.sessionEnded reconnect exit) := by
  unfold sessionEnded
  dsimp only
  split
  · exact ⟨rfl, rfl⟩
  · exact ⟨(sleepOrStop_signal ..).stop, (sleepOrStop_signal ..).seen⟩

theorem Signalled.same (signalled : d.Signalled) (live : ∀ result, d.phase ≠ .returned result)
    (same : d.SameSignal d') : d'.Signalled :=
  ⟨by rw [same.stop, signalled.value], fun _ => same.seen.trans (signalled.seen live)⟩

theorem Signalled.request (signalled : d.Signalled) : d.request.Signalled :=
  ⟨(decide_eq_true (Nat.succ_pos _)).symm, signalled.seen⟩

theorem Signalled.step {e : ClientEvent} (signalled : d.Signalled)
    (took : Took client reconnect d e d') :
    d'.Signalled := by
  cases took with
  | stop => exact signalled.request
  | leave top => exact signalled.same (by simp [top]) ⟨rfl, rfl⟩
  | connect top => exact signalled.same (by simp [top]) ⟨rfl, rfl⟩
  | unbound connecting => exact signalled.same (by simp [connecting]) (attemptFailed_signal ..)
  | bound connecting => exact signalled.same (by simp [connecting]) ⟨rfl, rfl⟩
  | refused shaking => exact signalled.same (by simp [shaking]) (attemptFailed_signal ..)
  | shaken shaking => exact signalled.same (by simp [shaking]) ⟨rfl, rfl⟩
  | unusable opening => exact signalled.same (by simp [opening]) (establish_signal ..)
  | opened opening => exact signalled.same (by simp [opening]) (establish_signal ..)
  | panicked running => exact signalled.same (by simp [running]) ⟨rfl, rfl⟩
  | turned running => exact signalled.same (by simp [running]) ⟨rfl, rfl⟩
  | sessionEnds running => exact signalled.same (by simp [running]) (sessionEnded_signal ..)
  | elapsed sleeping => exact signalled.same (by simp [sleeping]) ⟨rfl, rfl⟩
  | halted waiting stopped =>
      obtain ⟨status, halts⟩ :=
        halt_eq waiting ((signalled.changed (live_of_waiting waiting)).symm.trans stopped)
      rw [halts]
      exact ⟨signalled.value, fun gone => absurd rfl (gone .ok)⟩

theorem init_signalled : ({} : ClientLoop τ).Signalled := ⟨rfl, fun _ => rfl⟩

theorem Reachable.signalled (reachable : Reachable client reconnect d) : d.Signalled := by
  obtain ⟨events, ran⟩ := reachable
  exact Runs.invariant (fun _ _ _ stepped signalled => signalled.step (step_took stepped)) ran
    init_signalled

theorem Reachable.invariant {Inv : ClientLoop τ → Prop}
    (keeps : ∀ {d e d'}, d.Signalled → Inv d → Took client reconnect d e d' → Inv d')
    (start : Inv {}) (reachable : Reachable client reconnect d) : Inv d := by
  obtain ⟨events, ran⟩ := reachable
  have both : ∀ (d : ClientLoop τ) e d', step client reconnect d e = some d' →
      d.Signalled ∧ Inv d → d'.Signalled ∧ Inv d' := by
    rintro d e d' stepped ⟨signalled, holds⟩
    exact ⟨signalled.step (step_took stepped), keeps signalled holds (step_took stepped)⟩
  exact (Runs.invariant both ran ⟨init_signalled, start⟩).2

/-- The operator's request. -/
def requested : ClientEvent → Bool
  | .stop => true
  | _ => false

theorem Took.stop_eq {e : ClientEvent} (took : Took client reconnect d e d')
    (signalled : d.Signalled) :
    d'.stop = if requested e then d.stop.send true else d.stop := by
  cases took with
  | stop | leave | connect | bound | shaken | panicked | turned | elapsed => rfl
  | unbound | refused => exact (attemptFailed_signal ..).stop
  | unusable | opened => exact (establish_signal ..).stop
  | sessionEnds => exact (sessionEnded_signal ..).stop
  | halted waiting stopped =>
      obtain ⟨status, halts⟩ :=
        halt_eq waiting ((signalled.changed (live_of_waiting waiting)).symm.trans stopped)
      rw [halts]
      rfl

theorem run_value {events : List ClientEvent} (signalled : d.Signalled)
    (ran : run client reconnect d events = some d') :
    d'.stop.value = (d.stop.value || events.any requested) := by
  induction events generalizing d with
  | nil =>
      cases ran
      simp
  | cons e events ih =>
      obtain ⟨mid, stepped, rest⟩ := Runs.run_cons_eq_some.mp ran
      have took := step_took stepped
      rw [ih (signalled.step took) rest, took.stop_eq signalled, List.any_cons]
      cases requested e <;> simp [StopChannel.send]

end ClientLoop

end Rustnies
