import Rustnies.Client.Daemon
import Rustnies.Protocol.Negotiation
import Rustnies.Tunnel.Endings

/-! # Reconnecting

How the client's loop spaces its attempts and what it publishes about them, over whole
runs: both follow from how the attempts ended. With `reconnect` nothing but the stop
signal makes it return, unless its tunnel panics.
-/

namespace Rustnies

theorem ClientCall.client_selection {β : Type} [Byte β] {call : ClientCall β}
    {attempts : Nat → Attempt β} {established : SessionEstablished β}
    (done : (call.client attempts).2 = .ok established) :
    established.selection.check = .ok () := by
  unfold client at done
  split at done
  · cases done
  generalize (List.range HANDSHAKE_MAX_ATTEMPTS).map attempts = all at done
  induction all with
  | nil => cases done
  | cons a rest ih =>
      simp only [attemptsFrom] at done
      split at done
      · next result ended =>
          simp only at done
          subst done
          unfold attempt at ended
          split at ended
          · cases ended
          · split at ended
            · have concluded := (Prod.mk.inj ended).2
              unfold conclude at concluded
              repeat' split at concluded
              all_goals first | (cases concluded; assumption) | cases concluded
            · cases ended
      · exact ih done

/-! ## The waits -/

/-- An attempt that made no session. -/
def Reason.isFailure : Reason → Bool
  | .ended _ => false
  | _ => true

/-- What a daemon that does not reconnect returns after the attempt. -/
def Reason.result (reason : Reason) : ClientResult :=
  if reason.isFailure then .failed reason else .ok

/-- The failures since the last session. -/
def failuresInRow (history : List Reason) : Nat :=
  (history.reverse.takeWhile Reason.isFailure).length

/-- A second, doubled for every failure, up to half a minute. -/
def ladder (failures : Nat) : Duration :=
  min (2 ^ failures * RECONNECT_INITIAL_BACKOFF) RECONNECT_MAX_BACKOFF

/-- The wait after an attempt. -/
def waitAfter (earlier : List Reason) (reason : Reason) : Duration :=
  if reason.isFailure then ladder (failuresInRow earlier) else RECONNECT_INITIAL_BACKOFF

def waitsFrom (earlier : List Reason) : List Reason → List Duration
  | [] => []
  | reason :: rest => waitAfter earlier reason :: waitsFrom (earlier ++ [reason]) rest

/-- The waits that the ends of the attempts call for. -/
def waitsOf (history : List Reason) : List Duration := waitsFrom [] history

theorem failuresInRow_concat (history : List Reason) (reason : Reason) :
    failuresInRow (history ++ [reason]) = if reason.isFailure then failuresInRow history + 1
    else 0 := by
  simp only [failuresInRow, List.reverse_append, List.reverse_cons, List.reverse_nil,
    List.nil_append, List.cons_append, List.takeWhile_cons]
  split <;> rfl

theorem ladder_succ (failures : Nat) :
    ladder (failures + 1) = min (ladder failures * 2) RECONNECT_MAX_BACKOFF := by
  change (min (2 ^ (failures + 1) * 1000000000) 30000000000 : Nat) =
    min (min (2 ^ failures * 1000000000) 30000000000 * 2) 30000000000
  rw [Nat.pow_succ]
  omega

theorem ladder_zero : ladder 0 = RECONNECT_INITIAL_BACKOFF := by decide

theorem ladder_bounds (failures : Nat) :
    RECONNECT_INITIAL_BACKOFF ≤ ladder failures ∧
    ladder failures ≤ RECONNECT_MAX_BACKOFF := by
  have one : 1 ≤ 2 ^ failures := Nat.one_le_two_pow
  change (1000000000 : Nat) ≤ min (2 ^ failures * 1000000000) 30000000000 ∧
    (min (2 ^ failures * 1000000000) 30000000000 : Nat) ≤ 30000000000
  omega

theorem waitAfter_bounds (earlier : List Reason) (reason : Reason) :
    RECONNECT_INITIAL_BACKOFF ≤ waitAfter earlier reason ∧
    waitAfter earlier reason ≤ RECONNECT_MAX_BACKOFF := by
  unfold waitAfter
  split
  · exact ladder_bounds _
  · exact ⟨Nat.le_refl _, by decide⟩

theorem waitsFrom_concat (earlier history : List Reason) (reason : Reason) :
    waitsFrom earlier (history ++ [reason]) = waitsFrom earlier history ++
    [waitAfter (earlier ++ history) reason] := by
  induction history generalizing earlier with
  | nil => simp [waitsFrom]
  | cons first history ih => simp [waitsFrom, ih]

theorem waitsOf_concat (history : List Reason) (reason : Reason) :
    waitsOf (history ++ [reason]) = waitsOf history ++ [waitAfter history reason] :=
    waitsFrom_concat [] history reason

theorem waitsFrom_bounds {earlier history : List Reason} :
    ∀ wait ∈ waitsFrom earlier history, RECONNECT_INITIAL_BACKOFF ≤ wait ∧
    wait ≤ RECONNECT_MAX_BACKOFF := by
  induction history generalizing earlier with
  | nil => simp [waitsFrom]
  | cons reason history ih =>
      intro wait member
      rcases List.mem_cons.mp member with rfl | later
      · exact waitAfter_bounds earlier reason
      · exact ih wait later

namespace ClientLoop

variable {τ : Type} {client : ClientCtx τ} {reconnect : Bool} {d d' : ClientLoop τ}

/-- The waits so far are those that the attempts call for, and the backoff is the next one's
    length, or becomes it when the loop wakes. -/
def Paces (d : ClientLoop τ) : Prop :=
  match d.phase with
  | .top | .connecting | .shaking =>
      d.waits = waitsOf d.attempts ∧ d.backoff = ladder (failuresInRow d.attempts)
  | .opening _ => d.waits = waitsOf d.attempts
  | .running .. => d.waits = waitsOf d.attempts ∧ d.backoff = RECONNECT_INITIAL_BACKOFF
  | .sleeping _ failed =>
      d.waits = waitsOf d.attempts ∧ (d.wake failed).backoff = ladder (failuresInRow d.attempts)
  | .returned _ => d.waits <+: waitsOf d.attempts

theorem Paces.started (paces : d.Paces) : d.waits <+: waitsOf d.attempts := by
  unfold Paces at paces
  split at paces
  case h_4 => exact paces ▸ List.prefix_rfl
  case h_7 => exact paces
  all_goals exact paces.1 ▸ List.prefix_rfl

theorem sleepOrStop_paces {history : List Reason} {reason : Reason} {dur : Duration} {failed : Bool}
    (attempts : d.attempts = history ++ [reason]) (waits : d.waits = waitsOf history)
    (due : dur = waitAfter history reason)
    (next : (d.wake failed).backoff = ladder (failuresInRow (history ++ [reason]))) :
    (d.sleepOrStop dur failed).Paces := by
  cases stopped : d.stop.value with
  | true =>
      rw [sleepOrStop_stopped stopped]
      change d.waits <+: waitsOf d.attempts
      rw [attempts, waits, waitsOf_concat]
      exact List.prefix_append ..
  | false =>
      rw [sleepOrStop_unstopped stopped]
      refine ⟨?_, ?_⟩
      · change d.waits ++ [dur] = waitsOf d.attempts
        rw [attempts, waits, waitsOf_concat, due]
      · change (d.wake failed).backoff = ladder (failuresInRow d.attempts)
        rw [attempts, next]

theorem attemptFailed_paces {reason : Reason} (failure : reason.isFailure = true)
    (waits : d.waits = waitsOf d.attempts)
    (backoff : d.backoff = ladder (failuresInRow d.attempts)) :
    (d.attemptFailed reconnect reason).Paces := by
  unfold attemptFailed
  split
  · refine sleepOrStop_paces rfl waits ?_ ?_
    · rw [waitAfter, failure, if_pos rfl]
      exact backoff
    · rw [failuresInRow_concat, failure, if_pos rfl, ladder_succ, ← backoff]
      rfl
  · change d.waits <+: waitsOf (d.attempts ++ [reason])
    rw [waits, waitsOf_concat]
    exact List.prefix_append ..

theorem sessionEnded_paces {exit : TunnelExit} (waits : d.waits = waitsOf d.attempts)
    (backoff : d.backoff = RECONNECT_INITIAL_BACKOFF) : (d.sessionEnded reconnect exit).Paces := by
  unfold sessionEnded
  dsimp only
  split
  · change d.waits <+: waitsOf (d.attempts ++ [Reason.ended exit])
    rw [waits, waitsOf_concat]
    exact List.prefix_append ..
  · refine sleepOrStop_paces rfl waits rfl ?_
    rw [failuresInRow_concat, Reason.isFailure, if_neg Bool.false_ne_true, ladder_zero]
    exact backoff

theorem establish_paces {now : Instant} {established : SessionEstablished UInt8}
    (waits : d.waits = waitsOf d.attempts) : (d.establish client now established).Paces := by
  unfold establish
  split
  · exact waits ▸ List.prefix_rfl
  · exact ⟨waits, rfl⟩

theorem Paces.step {e : ClientEvent} (signalled : d.Signalled) (paces : d.Paces)
    (took : Took client reconnect d e d') :
    d'.Paces := by
  have started := paces.started
  unfold Paces at paces
  cases took with
  | stop => exact paces
  | leave top => exact started
  | connect top =>
      rw [top] at paces
      exact paces
  | unbound connecting =>
      rw [connecting] at paces
      exact attemptFailed_paces rfl paces.1 paces.2
  | bound connecting =>
      rw [connecting] at paces
      exact paces
  | refused shaking =>
      rw [shaking] at paces
      exact attemptFailed_paces rfl paces.1 paces.2
  | shaken shaking =>
      rw [shaking] at paces
      exact paces.1
  | unusable opening =>
      rw [opening] at paces
      exact establish_paces paces
  | opened opening =>
      rw [opening] at paces
      exact establish_paces paces
  | panicked running => exact started
  | turned running =>
      rw [running] at paces
      exact paces
  | sessionEnds running =>
      rw [running] at paces
      exact sessionEnded_paces paces.1 paces.2
  | halted waiting stopped =>
      obtain ⟨status, halts⟩ :=
        halt_eq waiting ((signalled.changed (live_of_waiting waiting)).symm.trans stopped)
      rw [halts]
      exact started
  | elapsed sleeping =>
      rw [sleeping] at paces
      exact paces

/-! ## What is published -/

/-- The attempts since the last session began, that one included. -/
def retries (history : List Reason) : Nat :=
  failuresInRow history + if history.all Reason.isFailure then 0 else 1

theorem retries_concat (history : List Reason) (reason : Reason) :
    retries (history ++ [reason]) = if reason.isFailure then retries history + 1 else 1 := by
  simp only [retries, failuresInRow_concat, List.all_append, List.all_cons, List.all_nil,
    Bool.and_true]
  cases reason.isFailure with
  | true => simp; omega
  | false => simp

theorem saturatingSucc_toNat (n : UInt32) :
    (Tunnel.saturatingSucc n).toNat = min (n.toNat + 1) 0xFFFFFFFF := by
  have bound := n.toNat_lt
  unfold Tunnel.saturatingSucc
  split
  · next full => rw [full]; rfl
  · next room =>
      have below : n.toNat ≠ 0xFFFFFFFF := fun same => room (UInt32.toNat_inj.mp same)
      rw [UInt32.toNat_add, show (1 : UInt32).toNat = 1 from rfl]
      omega

/-- While it has no session the loop publishes how many attempts it has made since the last
    one, and why the latest is over. -/
structure Reports (history : List Reason) (status : ClientStatus) : Prop where
  down : status.connected = false
  reconnecting : status.reconnecting = !history.isEmpty
  attempts : status.reconnectAttempts.toNat = min (retries history) 0xFFFFFFFF
  lastError : status.lastError = history.getLast?

theorem Reports.failed {history : List Reason} {status : ClientStatus} {reason : Reason}
    (failure : reason.isFailure = true) (reports : Reports history status) :
    Reports (history ++ [reason]) (retrying status reason) where
  down := reports.down
  reconnecting := by simp [retrying]
  attempts := by
    rw [retries_concat, failure, if_pos rfl, retrying, saturatingSucc_toNat, reports.attempts]
    omega
  lastError := by simp [retrying]

theorem reports_ended (history : List Reason) (exit : TunnelExit) :
    Reports (history ++ [.ended exit]) (retrying {} (.ended exit)) where
  down := rfl
  reconnecting := by simp [retrying]
  attempts := by
    rw [retries_concat]
    rfl
  lastError := by simp [retrying]

/-- A session is published as one, and the time without one with its history. A tunnel that
    was stopped was told to. -/
def Publishes (d : ClientLoop τ) : Prop :=
  match d.phase with
  | .running _ tunnel _ => d.status = { connected := tunnel.exit.isNone } ∧ tunnel.Calm ∧
      (tunnel.exit = some .stopped → d.stop.value = true)
  | .returned _ => True
  | _ => Reports d.attempts d.status

theorem sleepOrStop_publishes {dur : Duration} {failed : Bool}
    (reports : Reports d.attempts d.status) :
    (d.sleepOrStop dur failed).Publishes := by
  unfold sleepOrStop
  split
  · trivial
  · exact reports

theorem attemptFailed_publishes {reason : Reason} (failure : reason.isFailure = true)
    (reports : Reports d.attempts d.status) : (d.attemptFailed reconnect reason).Publishes := by
  unfold attemptFailed
  split
  · exact sleepOrStop_publishes (reports.failed failure)
  · trivial

theorem sessionEnded_publishes {exit : TunnelExit} {connected : Bool}
    (status : d.status = { connected := connected })
    (told : exit = .stopped → d.stop.value = true) :
    (d.sessionEnded reconnect exit).Publishes := by
  unfold sessionEnded
  dsimp only
  split
  · trivial
  · next goesOn =>
      have unstopped : d.stop.value = false := by
        cases stopped : d.stop.value with
        | true => simp [stopped] at goesOn
        | false => rfl
      refine sleepOrStop_publishes ?_
      have other : ¬ (exit = .stopped ∨ d.stop.value = true) := by
        rw [unstopped]
        rintro (stop | up)
        · exact Bool.false_ne_true (unstopped.symm.trans (told stop))
        · exact Bool.false_ne_true up
      simp only [if_neg other, status]
      exact reports_ended d.attempts exit

theorem newTunnel_calm {now : Instant} {established : SessionEstablished UInt8} {cfg : Config τ}
    {tunnel : Tunnel τ} (built : client.newTunnel now established = .ok (cfg, tunnel)) :
    tunnel.Calm ∧ tunnel.exit = none := by
  unfold ClientCtx.newTunnel at built
  split at built
  · cases built
  · cases built
    refine ⟨Tunnel.fromHandshake_calm _ _ _ _ _, ?_⟩
    obtain ⟨adaptive, params, same⟩ :=
      Tunnel.configureFec_eq _
      (Tunnel.fromHandshake established.peer (.new established.sessionId .initiator)
      client.newCongestion now) client.fecConfig
    rw [same]
    rfl

theorem establish_publishes (now : Instant) (established : SessionEstablished UInt8) :
    (d.establish client now established).Publishes := by
  unfold establish
  split
  · trivial
  · next cfg tunnel built =>
      obtain ⟨calm, running⟩ := newTunnel_calm built
      refine ⟨?_, calm, fun stopped => ?_⟩
      · rw [running]
        rfl
      · rw [running] at stopped
        cases stopped

theorem stopped_of_step {cfg : Config τ} {tunnel tunnel' : Tunnel τ} {env : Env} {event : Event}
    (calm : tunnel.Calm) (alive : tunnel.exit = none)
    (stepped : tunnel.step cfg (env, event) = some tunnel')
    (stopped : tunnel'.exit = some .stopped) : event = .stop true := by
  rw [Tunnel.step_running _ alive] at stepped
  rw [Tunnel.handleEvent_ending alive (calm alive) stepped] at stopped
  cases event with
  | stop up =>
      cases up with
      | true => rfl
      | false => cases stopped
  | datagram bytes source =>
      simp only [Watch.ending] at stopped
      split at stopped
      · cases stopped
      · split at stopped <;> cases stopped
  | timeoutCheck =>
      simp only [Watch.ending] at stopped
      split at stopped <;> cases stopped
  | _ => cases stopped

theorem Publishes.step {e : ClientEvent} (signalled : d.Signalled) (publishes : d.Publishes)
    (took : Took client reconnect d e d') : d'.Publishes := by
  unfold Publishes at publishes
  cases took with
  | stop =>
      unfold Publishes
      rw [show d.request.phase = d.phase from rfl]
      cases stands : d.phase with
      | running cfg tunnel seen =>
          rw [stands] at publishes
          exact ⟨publishes.1, publishes.2.1, fun _ => rfl⟩
      | returned result => trivial
      | _ =>
          rw [stands] at publishes
          exact publishes
  | leave top => trivial
  | connect top =>
      rw [top] at publishes
      exact publishes
  | unbound connecting =>
      rw [connecting] at publishes
      exact attemptFailed_publishes rfl publishes
  | bound connecting =>
      rw [connecting] at publishes
      exact publishes
  | refused shaking =>
      rw [shaking] at publishes
      exact attemptFailed_publishes rfl publishes
  | shaken shaking =>
      rw [shaking] at publishes
      exact publishes
  | unusable opening => exact establish_publishes _ _
  | opened opening => exact establish_publishes _ _
  | panicked running => trivial
  | turned running alive heard stepped =>
      rw [running] at publishes
      obtain ⟨status, calm, -⟩ := publishes
      refine ⟨by rw [status], Tunnel.step_calm stepped calm, fun stopped => ?_⟩
      cases stopped_of_step calm alive stepped stopped
      simp only [afterEvent] at heard
      split at heard
      · next told => exact told.2.symm
      · cases heard
  | sessionEnds running ended =>
      rw [running] at publishes
      exact sessionEnded_publishes publishes.1 fun stopped => publishes.2.2 (by rw [ended, stopped])
  | halted waiting stopped =>
      obtain ⟨status, halts⟩ :=
        halt_eq waiting ((signalled.changed (live_of_waiting waiting)).symm.trans stopped)
      rw [halts]
      trivial
  | elapsed sleeping =>
      rw [sleeping] at publishes
      exact publishes

/-! ## Whole runs -/

theorem Reachable.paces (reachable : Reachable client reconnect d) : d.Paces :=
  reachable.invariant (fun signalled paces took => paces.step signalled took)
    ⟨rfl, ladder_zero.symm⟩

theorem Reachable.publishes (reachable : Reachable client reconnect d) : d.Publishes :=
  reachable.invariant (fun signalled publishes took => publishes.step signalled took)
    ⟨rfl, rfl, rfl, rfl⟩

/-- In every state that the daemon reaches, the waits so far are those that the ends of its
    attempts call for: a second after a session, and after each failure in a row twice
    the wait before it, from a second up to half a minute. As long as the daemon goes
    on, none of them is missing, and what it publishes follows from the same history:
    the session while one runs, and without one the number of attempts since the last
    session, which does not wrap, with the reason of the latest. -/
theorem run_spaced (reachable : Reachable client reconnect d) :
    d.waits <+: waitsOf d.attempts ∧
    (∀ wait ∈ d.waits, RECONNECT_INITIAL_BACKOFF ≤ wait ∧
      wait ≤ RECONNECT_MAX_BACKOFF) ∧
    ((∀ result, d.phase ≠ .returned result) → d.waits = waitsOf d.attempts ∧
      ((∃ cfg tunnel seen, d.phase = .running cfg tunnel seen ∧
        d.status = { connected := tunnel.exit.isNone }) ∨
        (∀ cfg tunnel seen, d.phase ≠ .running cfg tunnel seen) ∧
        Reports d.attempts d.status)) := by
  have paces := reachable.paces
  have publishes := reachable.publishes
  refine ⟨paces.started, fun wait member => waitsFrom_bounds wait (paces.started.subset member),
    fun live => ?_⟩
  unfold Paces at paces
  unfold Publishes at publishes
  cases stands : d.phase with
  | returned result => exact absurd stands (live result)
  | running cfg tunnel seen =>
      rw [stands] at paces publishes
      exact ⟨paces.1, .inl ⟨cfg, tunnel, seen, rfl, publishes.1⟩⟩
  | opening established =>
      rw [stands] at paces publishes
      exact ⟨paces, .inr ⟨by simp, publishes⟩⟩
  | _ =>
      rw [stands] at paces publishes
      exact ⟨paces.1, .inr ⟨by simp, publishes⟩⟩

/-- No carrier at the first attempt, and no answer at the second. -/
def twoFailures : List ClientEvent :=
  [.loopHead, .carrier (.error "network is unreachable"), .elapsed, .loopHead, .carrier (.ok ()),
    .handshake fun _ => ⟨[3], true, .timedOut⟩]

theorem twoFailures_spaced : ∃ d, run ClientCtx.sample true {} twoFailures = some d ∧
    d.waits = [1000000000, 2000000000] ∧ d.waits = waitsOf d.attempts ∧
    d.status.lastError = some (.handshake .timeout) := by
  have evaluated : ((run ClientCtx.sample true {} twoFailures).any fun d => d.phase.result.isNone &&
      decide (d.waits = [1000000000, 2000000000] ∧
        d.status.lastError = some (.handshake .timeout))) = true := by
    decide +kernel
  obtain ⟨d, ran, checked⟩ := (Option.any_eq_true _ _).mp evaluated
  obtain ⟨goesOn, checked⟩ := Bool.and_eq_true_iff.mp checked
  obtain ⟨waits, lastError⟩ := of_decide_eq_true checked
  have live : ∀ result, d.phase ≠ .returned result := by
    intro result returned
    rw [returned] at goesOn
    cases goesOn
  exact ⟨d, ran, waits, ((run_spaced ⟨_, ran⟩).2.2 live).1, lastError⟩

/-! ## What ends the daemon -/

/-- How the daemon may have come to its end, and that without `reconnect` a second attempt is
    never made. -/
def Ends (reconnect : Bool) (d : ClientLoop τ) : Prop :=
  match d.phase with
  | .returned .ok =>
      d.stop.value = true ∨ reconnect = false ∧ ∃ exit, d.attempts = [.ended exit]
  | .returned (.failed reason) =>
      reconnect = false ∧ reason.isFailure = true ∧ d.attempts = [reason]
  | .returned (.profile _) => False
  | .returned .panicked => True
  | .opening established =>
      established.selection.check = .ok () ∧ (reconnect = false → d.attempts = [])
  | _ => reconnect = false → d.attempts = []

theorem sleepOrStop_ends {dur : Duration} {failed : Bool}
    (again : reconnect = false → d.attempts = []) :
    (d.sleepOrStop dur failed).Ends reconnect := by
  cases stopped : d.stop.value with
  | true =>
      rw [sleepOrStop_stopped stopped]
      exact .inl stopped
  | false =>
      rw [sleepOrStop_unstopped stopped]
      exact again

theorem attemptFailed_ends {reason : Reason} (failure : reason.isFailure = true)
    (first : reconnect = false → d.attempts = []) :
    (d.attemptFailed reconnect reason).Ends reconnect := by
  unfold attemptFailed
  cases reconnect with
  | true => exact sleepOrStop_ends (by simp)
  | false =>
      refine ⟨rfl, failure, ?_⟩
      change d.attempts ++ [reason] = [reason]
      rw [first rfl, List.nil_append]

theorem sessionEnded_ends {exit : TunnelExit} (first : reconnect = false → d.attempts = []) :
    (d.sessionEnded reconnect exit).Ends reconnect := by
  unfold sessionEnded
  dsimp only
  split
  · next leaves =>
      cases stopped : d.stop.value with
      | true => exact .inl stopped
      | false =>
          rw [stopped, Bool.false_or, Bool.not_eq_true'] at leaves
          refine .inr ⟨leaves, exit, ?_⟩
          change d.attempts ++ [.ended exit] = [.ended exit]
          rw [first leaves, List.nil_append]
  · next goesOn =>
      refine sleepOrStop_ends fun off => ?_
      simp [off] at goesOn

theorem establish_ends {now : Instant} {established : SessionEstablished UInt8}
    (runnable : established.selection.check = .ok ())
    (first : reconnect = false → d.attempts = []) :
    (d.establish client now established).Ends reconnect := by
  obtain ⟨resolved, resolve, -⟩ :=
    Selection.buildable_of_check runnable client.call.profile.handshakeTransport
  unfold establish ClientCtx.newTunnel
  rw [resolve]
  exact first

theorem Ends.mono (ends : d.Ends reconnect) (phase : d'.phase = d.phase)
    (attempts : d'.attempts = d.attempts) (up : d.stop.value = true → d'.stop.value = true) :
    d'.Ends reconnect := by
  unfold Ends at ends ⊢
  rw [phase, attempts]
  cases stands : d.phase with
  | returned result =>
      rw [stands] at ends
      cases result with
      | ok => exact ends.imp_left up
      | _ => exact ends
  | _ =>
      rw [stands] at ends
      exact ends

theorem Ends.step {e : ClientEvent} (signalled : d.Signalled) (ends : d.Ends reconnect)
    (took : Took client reconnect d e d') : d'.Ends reconnect := by
  have same := ends
  unfold Ends at ends
  cases took with
  | stop => exact same.mono rfl rfl fun _ => rfl
  | leave top stopped => exact .inl stopped
  | connect top =>
      rw [top] at ends
      exact ends
  | unbound connecting =>
      rw [connecting] at ends
      exact attemptFailed_ends rfl ends
  | bound connecting =>
      rw [connecting] at ends
      exact ends
  | refused shaking =>
      rw [shaking] at ends
      exact attemptFailed_ends rfl ends
  | shaken shaking _ done =>
      rw [shaking] at ends
      exact ⟨ClientCall.client_selection done, ends⟩
  | unusable opening =>
      rw [opening] at ends
      exact establish_ends ends.1 ends.2
  | opened opening =>
      rw [opening] at ends
      exact establish_ends ends.1 ends.2
  | panicked running => trivial
  | turned running =>
      rw [running] at ends
      exact ends
  | sessionEnds running =>
      rw [running] at ends
      exact sessionEnded_ends ends
  | halted waiting stopped =>
      have up := (signalled.changed (live_of_waiting waiting)).symm.trans stopped
      obtain ⟨status, halts⟩ := halt_eq waiting up
      rw [halts]
      exact .inl up
  | elapsed sleeping =>
      rw [sleeping] at ends
      exact ends

theorem Reachable.ends (reachable : Reachable client reconnect d) : d.Ends reconnect :=
  reachable.invariant (fun signalled ends took => ends.step signalled took) fun _ => rfl

/-- Without `reconnect` the loop has come to the end of no attempt, or it has returned what
    came of the only one. -/
def Once (d : ClientLoop τ) : Prop :=
  match d.phase with
  | .returned result =>
      d.attempts = [] ∨ ∃ reason, d.attempts = [reason] ∧ result = reason.result
  | .sleeping .. => False
  | _ => d.attempts = []

theorem Once.step {e : ClientEvent} (signalled : d.Signalled) (once : d.Once)
    (took : Took client false d e d') :
    d'.Once := by
  unfold Once at once
  cases took with
  | stop => exact once
  | leave top =>
      rw [top] at once
      exact .inl once
  | connect top =>
      rw [top] at once
      exact once
  | unbound connecting =>
      rw [connecting] at once
      exact .inr ⟨_, congrArg (· ++ [_]) once, rfl⟩
  | bound connecting =>
      rw [connecting] at once
      exact once
  | refused shaking =>
      rw [shaking] at once
      exact .inr ⟨_, congrArg (· ++ [_]) once, rfl⟩
  | shaken shaking =>
      rw [shaking] at once
      exact once
  | unusable opening unbuilt =>
      rw [opening] at once
      unfold establish
      rw [unbuilt]
      exact .inl once
  | opened opening built =>
      rw [opening] at once
      unfold establish
      rw [built]
      exact once
  | panicked running =>
      rw [running] at once
      exact .inl once
  | turned running =>
      rw [running] at once
      exact once
  | sessionEnds running =>
      rw [running] at once
      unfold sessionEnded
      dsimp only
      rw [Bool.not_false, Bool.or_true, if_pos rfl]
      exact .inr ⟨_, congrArg (· ++ [_]) once, rfl⟩
  | halted waiting stopped =>
      obtain ⟨status, halts⟩ :=
        halt_eq waiting ((signalled.changed (live_of_waiting waiting)).symm.trans stopped)
      rw [halts]
      rcases waiting with shaking | ⟨dur, failed, sleeping⟩
      · rw [shaking] at once
        exact .inl once
      · rw [sleeping] at once
        exact once.elim
  | elapsed sleeping =>
      rw [sleeping] at once
      exact once.elim

/-- The loop looks at the signal, and begins an attempt if it is down. -/
def begins : ClientEvent → Bool
  | .loopHead => true
  | _ => false

/-- How many attempts the loop can still begin without `reconnect`. -/
def unbegun : ClientPhase τ → Nat
  | .top => 1
  | _ => 0

/-- The loop comes to its head only where it starts. -/
theorem Once.unbegun_step {e : ClientEvent} (signalled : d.Signalled) (once : d.Once)
    (took : Took client false d e d') :
    (if begins e then 1 else 0) + unbegun d'.phase ≤ unbegun d.phase := by
  unfold Once at once
  cases took with
  | stop => exact Nat.le_of_eq (Nat.zero_add _)
  | leave top | connect top => simp [begins, top, unbegun]
  | unbound | refused => simp [begins, attemptFailed, unbegun]
  | unusable opening unbuilt => simp [begins, establish, unbuilt, unbegun]
  | opened opening built => simp [begins, establish, built, unbegun]
  | sessionEnds => simp [begins, sessionEnded, unbegun]
  | bound | shaken | panicked | turned => simp [begins, unbegun]
  | halted waiting stopped =>
      obtain ⟨status, halts⟩ :=
        halt_eq waiting ((signalled.changed (live_of_waiting waiting)).symm.trans stopped)
      simp [begins, halts, unbegun]
  | elapsed sleeping =>
      rw [sleeping] at once
      exact once.elim

theorem run_once {events : List ClientEvent} (signalled : d.Signalled) (once : d.Once)
    (ran : run client false d events = some d') :
    d'.Once ∧ events.countP begins + unbegun d'.phase ≤ unbegun d.phase := by
  induction events generalizing d with
  | nil =>
      cases ran
      exact ⟨once, Nat.le_of_eq (Nat.zero_add _)⟩
  | cons e events ih =>
      obtain ⟨mid, stepped, rest⟩ := Runs.run_cons_eq_some.mp ran
      have took := step_took stepped
      obtain ⟨later, few⟩ := ih (signalled.step took) (once.step signalled took) rest
      have now := once.unbegun_step signalled took
      refine ⟨later, ?_⟩
      rw [List.countP_cons]
      omega

end ClientLoop

end Rustnies
