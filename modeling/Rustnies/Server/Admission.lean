import Rustnies.Protocol.Agreement
import Rustnies.Protocol.Negotiation
import Rustnies.Server.Effects

/-! # Handshakes that are refused

A handshake that fails leaves the sessions alone. The cap evicts before the profile of
the new session is built, but what a negotiation selects can always be built.

`handle_handshake` asks `PeerAuth` about the key of a message 1 in restricted mode
only; in open mode it passes no authorizer. So a key on the denylist is refused exactly
in restricted mode.
-/

namespace Rustnies.Server

variable {σ : Type} {s : Server σ} {ctx : ServerCtx σ} {env : ServerEnv} {msg1 key : Bytes}
  {source : SocketAddr} {carrier : SessionCarrier}

/-- A message 1 that changes nothing: no session is made, and none is evicted. -/
structure Refused (s : Server σ) (result : Bool × Server σ) : Prop where
  answer : result.1 = false
  sessions : result.2.sessions = s.sessions
  addrIndex : result.2.addrIndex = s.addrIndex
  tasks : result.2.tasks = s.tasks
  capEvicted : result.2.capEvicted = s.capEvicted

theorem refused_of_no_answer (silent : s.respond ctx env msg1 source = none) :
    s.Refused (s.handleHandshake ctx env msg1 source carrier) := by
  rw [handleHandshake, silent]
  exact ⟨rfl, rfl, rfl, rfl, rfl⟩

/-- Once message 2 is sent, nothing can fail. -/
theorem acceptHandshake_true {established : SessionEstablished UInt8}
    (runnable : established.selection.check = .ok ()) :
    (s.acceptHandshake ctx env msg1 carrier established).1 = true := by
  obtain ⟨profile, built, -⟩ :=
    Selection.buildable_of_check runnable ctx.profile.handshakeTransport
  simp only [acceptHandshake, built]

/-- Without an answer, or with one that cannot be sent, nothing has been done yet. -/
theorem refused_of_failed (failed : (s.handleHandshake ctx env msg1 source carrier).1 = false) :
    s.Refused (s.handleHandshake ctx env msg1 source carrier) := by
  cases answered : s.respond ctx env msg1 source with
  | none => exact refused_of_no_answer answered
  | some answer =>
      obtain ⟨established, wire⟩ := answer
      obtain ⟨-, -, -, -, -, -, runnable, -⟩ := respondMessage1_some answered
      simp only [handleHandshake, answered] at failed ⊢
      split
      · rename_i sent
        rw [if_pos sent, acceptHandshake_true runnable] at failed
        cases failed
      · exact ⟨rfl, rfl, rfl, rfl, rfl⟩

/-- A handshake that fails, at whatever stage, evicts nobody and leaves the sessions,
    their tasks and the addresses as they were. -/
theorem failed_handshake_refused
    (failed : (s.handleHandshake ctx env msg1 source carrier).1 = false) :
    s.Refused (s.handleHandshake ctx env msg1 source carrier) :=
  refused_of_failed failed

/-- A server with a cap of one session and the session of one client. -/
def cappedServer : Server Unit :=
  ((init 0 .openMode).handleHandshake (.small .udp 1) (.small 1 5) (smallMessage1 9 3)
    ⟨.v4 1, 1⟩ .shared).2

/-- The same client comes back, and the reply to it cannot be sent. -/
theorem unsent_reply_refused :
    let result := cappedServer.handleHandshake (.small .udp 1)
      { ServerEnv.small 2 6 with sendOk := fun _ _ => false }
      (smallMessage1 9 4) ⟨.v4 1, 2⟩ .shared
    cappedServer.sessions.keys = [84215045] ∧ result.1 = false ∧ cappedServer.Refused result :=
  ⟨by decide +kernel, by decide +kernel, failed_handshake_refused (by decide +kernel)⟩

/-! ## The denylist -/

theorem refused_of_restricted (restricted : s.peerAuth.isOpenMode = false)
    (denied : s.peerAuth.isRevoked key = true) (reads : readsAs ctx msg1 = some key) :
    s.Refused (s.handleHandshake ctx env msg1 source carrier) := by
  cases answered : s.respond ctx env msg1 source with
  | none => exact refused_of_no_answer answered
  | some answer =>
      obtain ⟨established, wire⟩ := answer
      have owner := readsAs_of_respond ctx answered
      rw [reads] at owner
      cases owner
      have admits := admits_of_respond ctx answered
      rw [Admits, restricted, PeerAuth.check, if_pos denied] at admits
      rcases admits with isOpen | allowed
      · cases isOpen
      · cases allowed

/-! ## Open mode -/

/-- A server over primitives that keep the laws of the real ones. -/
def lawfulServer : ServerCtx Unit :=
  { ServerCtx.small .udp 0 with
    prim := .summing
    aead := NoisePrimitives.summing.aead
    serverKp := .generate .summing [2] }

theorem summing_publicKey (long : key.length = 32) :
    NoisePrimitives.summing.publicKey key = key := by
  simp only [NoisePrimitives.summing]
  rw [List.take_append_of_le_length (Nat.le_of_eq long.symm),
    List.take_of_length_le (Nat.le_of_eq long)]

theorem length_of_readMessage1 {hs : NoiseHandshake UInt8} {prim : NoisePrimitives UInt8}
    {result : (Bytes × Bytes) × NoiseHandshake UInt8}
    (read : hs.readMessage1 prim msg1 = .ok result) :
    ¬ msg1.length < MSG1_MIN := by
  intro short
  rw [NoiseHandshake.readMessage1] at read
  split at read
  · cases read
  · rw [if_pos (show msg1.length < 32 + 32 + TAG_LEN from short)] at read
    cases read

theorem accepted_of_read {m₁ m₂ : Bytes} {hs hs' : NoiseHandshake UInt8}
    {result : HandshakeResult UInt8}
    (read : (NoiseHandshake.new .summing .responder (.generate .summing [2]) none).readMessage1
      .summing m₁ = .ok ((key, []), hs))
    (write : hs.writeMessage2 .summing (List.replicate 32 5) (lits Selection.defaults.encode)
      Selection.defaults.suiteSchedule = .ok ((m₂, result), hs')) :
    readsAs lawfulServer m₁ = some key ∧
      ∀ s : Server Unit, s.peerAuth.isOpenMode = true →
        (s.handleHandshake lawfulServer (.small 1 5) m₁ ⟨.v4 1, 1⟩ .shared).1 = true := by
  have framed : framedMessage1 lawfulServer.profile lawfulServer.obfStack m₁ = some m₁ :=
    if_neg (length_of_readMessage1 read)
  have reads : readHello lawfulServer.prim lawfulServer.serverKp lawfulServer.profile
    lawfulServer.obfStack m₁ = some (⟨key, []⟩, hs) := by
    simp only [readHello, framed]
    exact congrArg Except.toOption (NoiseHandshake.responderReadMessage1_ok read)
  refine ⟨by rw [readsAs, reads]; rfl, fun s isOpen => ?_⟩
  have message2 := NoiseHandshake.responderMessage2_ok (rfl : Selection.defaults.check = .ok ())
    write ⟨key, []⟩ ⟨.v4 1, 1⟩ none
  have negotiated : negotiate lawfulServer.profile.prefs none lawfulServer.profile.dataTag =
      .ok Selection.defaults := rfl
  have answered : s.respond lawfulServer (.small 1 5) m₁ ⟨.v4 1, 1⟩ =
      some (NoiseHandshake.responderSession result key .defaults ⟨.v4 1, 1⟩ none, m₂) := by
    simp only [respond, isOpen, if_true, respondMessage1, reads, authorize, List.map_nil,
      ClientOffer.decode, Except.toOption, Option.join_some, negotiated]
    rw [show lawfulServer.prim = .summing from rfl, show (ServerEnv.small 1 5).ephemeral =
      List.replicate 32 5 from rfl, message2]
    rfl
  rw [handleHandshake, answered]
  rfl

theorem accepted_in_open_mode (long : key.length = 32) :
    ∃ msg1, readsAs lawfulServer msg1 = some key ∧
      ∀ s : Server Unit, s.peerAuth.isOpenMode = true →
        (s.handleHandshake lawfulServer (.small 1 5) msg1 ⟨.v4 1, 1⟩ .shared).1 = true := by
  obtain ⟨m₁, m₂, between, finish, -, read, write, -⟩ :=
    NoiseHandshake.exchange NoisePrimitives.summing NoisePrimitives.summing_lawful key [2] [3]
    (List.replicate 32 5) [] (lits Selection.defaults.encode) Selection.defaults.suiteSchedule
    NoiseHandshake.payloadSchedule
  rw [summing_publicKey long] at read write
  exact ⟨m₁, accepted_of_read read write⟩

/-- Every message 1 of a key on the denylist is refused exactly when the server is in
    restricted mode, however the state of `PeerAuth` came about. -/
theorem denylisted_refused_iff {auth : PeerAuth} (long : key.length = 32)
    (denied : auth.isRevoked key = true) :
    (∀ (σ : Type) (ctx : ServerCtx σ) (env : ServerEnv) (s : Server σ) (msg1 : Bytes)
      (source : SocketAddr) (carrier : SessionCarrier), s.peerAuth = auth → readsAs ctx msg1 =
      some key → s.Refused (s.handleHandshake ctx env msg1 source carrier)) ↔
    auth.isOpenMode = false := by
  constructor
  · intro refuses
    obtain ⟨msg1, reads, accepted⟩ := accepted_in_open_mode long
    cases isOpen : auth.isOpenMode with
    | false => rfl
    | true =>
        have refused := refuses Unit lawfulServer (.small 1 5) (.init 0 auth) msg1
          ⟨.v4 1, 1⟩ .shared rfl reads
        cases (accepted (.init 0 auth) isOpen).symm.trans refused.answer
  · rintro restricted σ ctx env s msg1 source carrier rfl reads
    exact refused_of_restricted restricted denied reads

/-- A key that was revoked in open mode connects. -/
theorem revoked_key_connects :
    let auth := PeerAuth.openMode.revoke (List.replicate 32 9)
    let after := (Server.init 0 auth).handleHandshake (ServerCtx.small .udp 0) (.small 1 5)
      (smallMessage1 9 3) ⟨.v4 1, 1⟩ .shared
    auth.isRevoked (List.replicate 32 9) = true ∧
      readsAs (ServerCtx.small .udp 0) (smallMessage1 9 3) = some (List.replicate 32 9) ∧
      after.1 = true ∧ after.2.sessions.keys ≠ [] := by
  decide +kernel

/-- Restricted mode, with one peer, whose key is revoked. -/
def revokedPeer : PeerAuth :=
  (PeerAuth.fromEntries
    [⟨"0909090909090909090909090909090909090909090909090909090909090909",
    some "laptop"⟩]).revoke (List.replicate 32 9)

/-- In restricted mode a revoked key does not connect, although its peer is listed. -/
theorem revoked_key_refused : revokedPeer.keys.lookup (List.replicate 32 9) =
      some (some "laptop") ∧
    Refused (Server.init 0 revokedPeer)
      ((Server.init 0 revokedPeer).handleHandshake (ServerCtx.small .udp 0) (.small 1 5)
      (smallMessage1 9 3) ⟨.v4 1, 1⟩ .shared) := by
  have listed : revokedPeer.keys.lookup (List.replicate 32 9) = some (some "laptop") :=
    by decide +kernel
  have denied : revokedPeer.isRevoked (List.replicate 32 9) = true := by decide +kernel
  have reads : readsAs (ServerCtx.small .udp 0) (smallMessage1 9 3) = some (List.replicate 32 9) :=
    by decide +kernel
  exact ⟨listed, (denylisted_refused_iff List.length_replicate denied).mpr rfl Unit _ _ _ _ _
    _ rfl reads⟩

end Rustnies.Server
