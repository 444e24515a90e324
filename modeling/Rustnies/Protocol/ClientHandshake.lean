import Rustnies.Protocol.Agreement

/-! # The client's handshake

The initiator half of `tunnel/handshake.rs`: up to ten attempts, each with a state and
an ephemeral of its own, each waiting for one message. What the carrier does in an
attempt is its input.
-/

namespace Rustnies

def HANDSHAKE_MAX_ATTEMPTS : Nat := 10

variable {β : Type} [Byte β]

/-- What comes out of waiting for message 2. -/
inductive Received (β : Type) where
  | message (bytes : List β) (sender : SocketAddr)
  | failed
  | timedOut

/-- One turn of the loop: the ephemeral it draws, whether the carrier takes message 1,
    and what it waits for. -/
structure Attempt (β : Type) where
  ephemeral : List β
  sent : Bool
  received : Received β

inductive ClientError where
  | timeout
  | protocol (e : HandshakeError)
  | io
  deriving Repr, DecidableEq

/-- What a client knows when it connects. -/
structure ClientCall (β : Type) where
  prim : NoisePrimitives β
  server : SocketAddr
  clientKp : KeyPair β
  serverPub : List β
  profile : LocalProfile
  obfuscation : ObfuscationStack β

namespace ClientCall

variable (call : ClientCall β)

/-- The offer that every attempt sends, encoded; empty without one. -/
def offer : List β := lits ((call.profile.offer.map ClientOffer.encode).getD [])

/-- Message 1 of an attempt, from a state built for it. -/
def message1 (attempt : Attempt β) : Except NoiseError (List β × NoiseHandshake β) :=
  (NoiseHandshake.new call.prim .initiator call.clientKp (some call.serverPub)).writeMessage1
    call.prim attempt.ephemeral call.offer

/-- Message 2 inside a message of the carrier. -/
def unwrapMessage2 (msg2 : List β) : Option (List β) :=
  match call.profile.handshakeTransport.unwrap msg2 with
  | .error _ => none
  | .ok unwrapped =>
      match call.obfuscation.reverse unwrapped with
      | .error _ => none
      | .ok unwrapped => if unwrapped.length < MSG2_MIN then none else some unwrapped

/-- The end of an attempt. Whatever is received ends it: `none` goes on to the next. -/
def conclude (hs : NoiseHandshake β) :
    Received β → Option (Except ClientError (SessionEstablished β))
  | .failed => none
  | .timedOut => none
  | .message msg2 sender =>
      if sender ≠ call.server then none
      else
        match call.unwrapMessage2 msg2 with
        | none => none
        | some unwrapped =>
            match hs.clientFinalize call.prim unwrapped call.server with
            | .error _ => none
            | .ok est =>
                match est.selection.check with
                | .ok () => some (.ok est)
                | .error e => some (.error (.protocol (.incompatibleProfile e)))

/-- The messages an attempt sends, and its result if it ends the call. -/
def attempt (a : Attempt β) :
    List (List β) × Option (Except ClientError (SessionEstablished β)) :=
  match call.message1 a with
  | .error e => ([], some (.error (.protocol (.kex e))))
  | .ok (m₁, hs) =>
      if a.sent then
        ([call.profile.handshakeTransport.wrap (call.obfuscation.apply m₁)],
          call.conclude hs a.received)
      else ([], some (.error .io))

def attemptsFrom :
    List (Attempt β) → List (List β) × Except ClientError (SessionEstablished β)
  | [] => ([], .error .timeout)
  | a :: rest =>
      match call.attempt a with
      | (sent, some result) => (sent, result)
      | (sent, none) =>
          let (more, result) := attemptsFrom rest
          (sent ++ more, result)

/-- `client`: the messages sent and the result of the call. -/
def client (attempts : Nat → Attempt β) :
    List (List β) × Except ClientError (SessionEstablished β) :=
  match selectHandshake call.profile.kexName with
  | .error e => ([], .error (.protocol e))
  | .ok .noiseIk => call.attemptsFrom ((List.range HANDSHAKE_MAX_ATTEMPTS).map attempts)

/-! ## What the call returns -/

variable {call}

theorem attemptsFrom_append {before rest : List (Attempt β)} {a : Attempt β}
    {result : Except ClientError (SessionEstablished β)}
    (goesOn : ∀ b ∈ before, (call.attempt b).2 = none)
    (ends : (call.attempt a).2 = some result) :
    (call.attemptsFrom (before ++ a :: rest)).2 = result := by
  induction before with
  | nil =>
      cases ended : call.attempt a with
      | mk sent outcome =>
          rw [ended] at ends
          cases ends
          simp only [List.nil_append, attemptsFrom, ended]
  | cons b before ih =>
      have next := goesOn b List.mem_cons_self
      have later := ih fun c member => goesOn c (List.mem_cons_of_mem _ member)
      cases went : call.attempt b with
      | mk sent outcome =>
          rw [went] at next
          cases next
          simp only [List.cons_append, attemptsFrom, went]
          exact later

theorem client_eq {attempts : Nat → Attempt β} {i : Nat}
    {result : Except ClientError (SessionEstablished β)}
    (kex : selectHandshake call.profile.kexName = .ok .noiseIk)
    (inside : i < HANDSHAKE_MAX_ATTEMPTS) (goesOn : ∀ j < i, (call.attempt (attempts j)).2 = none)
    (ends : (call.attempt (attempts i)).2 = some result) : (call.client attempts).2 = result := by
  obtain ⟨m, rounds⟩ := Nat.exists_eq_add_of_lt inside
  rw [client, kex]
  simp only [rounds, Nat.add_assoc, List.range_add, List.range_succ_eq_map, List.map_append,
    List.map_cons]
  refine attemptsFrom_append (fun b member => ?_) ends
  obtain ⟨j, before, rfl⟩ := List.mem_map.mp member
  exact goesOn j (List.mem_range.mp before)

/-- A valid message 2 that is the message received in the attempt whose message 1 it
    answers completes the call, with the other end of the responder's session. -/
theorem client_completes (call : ClientCall β) (lawful : call.prim.Lawful)
    (initiator responder : List β) (client : call.clientKp = .generate call.prim initiator)
    (known : call.serverPub = call.prim.publicKey responder)
    (kex : selectHandshake call.profile.kexName = .ok .noiseIk) (attempts : Nat → Attempt β)
    (i : Nat) (inside : i < HANDSHAKE_MAX_ATTEMPTS)
    (goesOn : ∀ j < i, (call.attempt (attempts j)).2 = none) (sent : (attempts i).sent = true)
    (m₁ ephemeral m₂ wire : List β) (hs : NoiseHandshake β) (selection : Selection)
    (peer : SocketAddr) (label : Option String) (responded : SessionEstablished β)
    (write : call.message1 (attempts i) = .ok (m₁, hs))
    (answered : NoiseHandshake.answer call.prim responder m₁ ephemeral selection peer label =
      .ok (m₂, responded)) (received : (attempts i).received = .message wire call.server)
    (unwraps : call.unwrapMessage2 wire = some m₂) :
    ∃ est, (call.client attempts).2 = .ok est ∧ est.Agree responded := by
  have wrote := write
  rw [message1, client, known] at wrote
  obtain ⟨runnable, est, finalize, selected, agree⟩ :=
    NoiseHandshake.clientFinalize_answer lawful wrote answered call.server
  refine ⟨est, client_eq kex inside goesOn ?_, agree⟩
  simp only [attempt, write, sent, if_true, received, conclude, ne_eq, not_true_eq_false, if_false,
    unwraps, finalize, selected, runnable]

/-! ## A reply that comes late -/

def lateCall : ClientCall UInt8 where
  prim := .summing
  server := ⟨.v4 1, 51820⟩
  clientKp := .generate .summing [1]
  serverPub := NoisePrimitives.summing.publicKey [2]
  profile := {
    kexName := DEFAULT_HANDSHAKE
    prefs := ⟨[], [], [], []⟩
    handshakeTransport := .plain
    dataTag := DEFAULT_TAG
    propose := false }
  obfuscation := []

/-- The answer to the message 1 of an attempt that drew the ephemeral. -/
def lateReply (ephemeral : Bytes) : Bytes :=
  match lateCall.message1 ⟨ephemeral, true, .timedOut⟩ with
  | .error _ => []
  | .ok (m₁, _) =>
      match NoiseHandshake.answer .summing [2] m₁ [4] .defaults ⟨.v4 9, 1⟩ none with
      | .error _ => []
      | .ok (m₂, _) => m₂

/-- Delayed, the answer to the first attempt arrives in the second. Otherwise the first gets
    its answer from a stranger's address, and the second its own from the server. All
    other attempts time out. -/
def lateAttempts (delayed : Bool) : Nat → Attempt UInt8
  | 0 => ⟨[3], true, if delayed then .timedOut else .message (lateReply [3]) ⟨.v4 6, 51820⟩⟩
  | 1 => ⟨[5], true, .message (lateReply (if delayed then [3] else [5])) ⟨.v4 1, 51820⟩⟩
  | _ => ⟨[6], true, .timedOut⟩

/-- After an attempt that the stranger's message ended, the next attempt's own reply completes
    the call. -/
theorem prompt_reply_completes : ∃ responded est, (lateCall.attempt (lateAttempts false 0)).2 =
      none ∧ (lateCall.client (lateAttempts false)).2 = .ok est ∧ est.Agree responded := by
  obtain ⟨m₁, hs, responded, write, answered⟩ : ∃ m₁ hs responded,
      lateCall.message1 (lateAttempts false 1) = .ok (m₁, hs) ∧
      NoiseHandshake.answer .summing [2] m₁ [4] .defaults ⟨.v4 9, 1⟩ none =
        .ok (lateReply [5], responded) :=
    ⟨_, _, _, rfl, rfl⟩
  have unwraps : lateCall.unwrapMessage2 (lateReply [5]) = some (lateReply [5]) := rfl
  have foreign : (lateCall.attempt (lateAttempts false 0)).2 = none := rfl
  have goesOn : ∀ j < 1, (lateCall.attempt (lateAttempts false j)).2 = none := by
    intro j before
    rw [Nat.lt_one_iff.mp before]
    exact foreign
  obtain ⟨est, done, agree⟩ := client_completes lateCall NoisePrimitives.summing_lawful [1]
    [2] rfl rfl rfl (lateAttempts false) 1 (by decide) goesOn rfl m₁ [4] (lateReply [5])
    (lateReply [5]) hs .defaults ⟨.v4 9, 1⟩ none responded write answered rfl unwraps
  exact ⟨responded, est, foreign, done, agree⟩

/-- A valid answer to the first message 1 that arrives in the second attempt is refused. -/
theorem late_reply_refused : ∃ m₁ hs responded,
    lateCall.message1 (lateAttempts true 0) = .ok (m₁, hs) ∧
    NoiseHandshake.answer .summing [2] m₁ [4] .defaults ⟨.v4 9, 1⟩ none =
    .ok (lateReply [3], responded) ∧ (lateAttempts true 1).received = .message
    (lateReply [3]) lateCall.server ∧ lateCall.unwrapMessage2 (lateReply [3]) =
    some (lateReply [3]) ∧
    (lateCall.client (lateAttempts true)).2 = .error .timeout := by
  exact ⟨_, _, _, rfl, rfl, rfl, rfl, rfl⟩

end ClientCall

end Rustnies
