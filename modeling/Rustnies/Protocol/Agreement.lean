import Rustnies.Crypto.NoiseSpec
import Rustnies.Protocol.Handshake
import Rustnies.Protocol.Offer

/-! # The two sides of a handshake agree

Both sides of a handshake over lawful primitives end with the same hash, and so with
the same session, and the selection that the responder made reaches the initiator.
-/

namespace Rustnies

variable {β : Type} [Byte β]

theorem lits_val (bs : Bytes) : (lits bs : List β).map Byte.val = bs := by
  rw [lits, List.map_map]
  exact (List.map_congr_left fun b _ => Byte.val_lit b).trans (List.map_id bs)

/-- The session of the initiator and that of the responder are the two ends of one. -/
structure SessionEstablished.Agree (initiator responder : SessionEstablished β) : Prop where
  handshakeHash : initiator.handshakeHash = responder.handshakeHash
  sessionId : initiator.sessionId = responder.sessionId
  selection : initiator.selection = responder.selection
  sendKey : initiator.sendKey = responder.recvKey
  recvKey : initiator.recvKey = responder.sendKey
  sendDir : initiator.sendDir = responder.recvDir
  recvDir : initiator.recvDir = responder.sendDir

namespace NoiseHandshake

variable {prim : NoisePrimitives β}

/-- The initiator's view of a key exchange. -/
def initiatorSession (result : HandshakeResult β) (peerStatic : List β) (selection : Selection)
    (peer : SocketAddr) :
    SessionEstablished β where
  peer := peer
  sessionId := sessionIdFromHash result.handshakeHash
  sendKey := result.keyI2r
  recvKey := result.keyR2i
  sendDir := .initiatorToResponder
  recvDir := .responderToInitiator
  peerStatic := peerStatic
  peerLabel := none
  handshakeHash := result.handshakeHash
  selection := selection

/-- The responder's view of a key exchange. -/
def responderSession (result : HandshakeResult β) (peerStatic : List β) (selection : Selection)
    (peer : SocketAddr) (label : Option String) : SessionEstablished β where
  peer := peer
  sessionId := sessionIdFromHash result.handshakeHash
  sendKey := result.keyR2i
  recvKey := result.keyI2r
  sendDir := .responderToInitiator
  recvDir := .initiatorToResponder
  peerStatic := peerStatic
  peerLabel := label
  handshakeHash := result.handshakeHash
  selection := selection

variable {s s' : NoiseHandshake β} {result : HandshakeResult β} {selection : Selection}

theorem responderReadMessage1_ok {msg1 peerStatic offer : List β}
    (read : s.readMessage1 prim msg1 = .ok ((peerStatic, offer), s')) :
    s.responderReadMessage1 prim msg1 = .ok (⟨peerStatic, offer⟩, s') := by
  rw [responderReadMessage1, read]

theorem responderMessage2_ok {ephemeral m₂ : List β} (runnable : selection.check = .ok ())
    (write : s.writeMessage2 prim ephemeral (lits selection.encode) selection.suiteSchedule =
      .ok ((m₂, result), s')) (hello : InitiatorHello β) (peer : SocketAddr)
    (label : Option String) :
    s.responderMessage2 prim ephemeral hello selection peer label =
      .ok (m₂, responderSession result hello.peerStatic selection peer label) := by
  rw [responderMessage2, runnable]
  simp only [write]
  rfl

theorem clientFinalize_ok {m₂ peerStatic : List β} (runnable : selection.check = .ok ())
    (read : s.readMessage2 prim m₂ payloadSchedule = .ok ((lits selection.encode, result), s'))
    (known : s'.peerStatic = some peerStatic) (peer : SocketAddr) :
    s.clientFinalize prim m₂ peer = .ok (initiatorSession result peerStatic selection peer) := by
  rw [clientFinalize, read]
  simp only [lits_val, Selection.decode_encode, runnable, known]
  rfl

theorem sessions_agree (result : HandshakeResult β) (peerStatic peerStatic' : List β)
    (selection : Selection) (client server : SocketAddr) (label : Option String) :
    (initiatorSession result peerStatic selection server).Agree
      (responderSession result peerStatic' selection client label) :=
  ⟨rfl, rfl, rfl, rfl, rfl, rfl, rfl⟩

/-- What a responder answers to a message 1: message 2 and its own session. -/
def answer (prim : NoisePrimitives β) (responder m₁ ephemeral : List β) (selection : Selection)
    (peer : SocketAddr) (label : Option String) :
    Except HandshakeError (List β × SessionEstablished β) :=
  match (new prim .responder (.generate prim responder) none).responderReadMessage1 prim m₁ with
  | .error e => .error e
  | .ok (hello, r) => r.responderMessage2 prim ephemeral hello selection peer label

theorem answer_eq {responder m₁ : List β} {hello : InitiatorHello β}
    (read : (new prim .responder (.generate prim responder) none).responderReadMessage1 prim m₁ =
      .ok (hello, s)) (ephemeral : List β) (selection : Selection) (peer : SocketAddr)
    (label : Option String) :
    answer prim responder m₁ ephemeral selection peer label =
      s.responderMessage2 prim ephemeral hello selection peer label := by
  rw [answer, read]

theorem clientFinalize_answer (lawful : prim.Lawful)
    {initiator responder ephemeral₁ ephemeral₂ offer m₁ m₂ : List β} {peer : SocketAddr}
    {label : Option String} {responded : SessionEstablished β}
    (write : (new prim .initiator (.generate prim initiator)
      (some (prim.publicKey responder))).writeMessage1 prim ephemeral₁ offer = .ok (m₁, s))
    (answered : answer prim responder m₁ ephemeral₂ selection peer label =
      .ok (m₂, responded)) (server : SocketAddr) :
    selection.check = .ok () ∧
      ∃ finalized, s.clientFinalize prim m₂ server = .ok finalized ∧
      finalized.selection = selection ∧ finalized.Agree responded := by
  obtain ⟨m₁', m₂', between, finish, write₁, read₁, write₂, read₂, -⟩ :=
    exchange prim lawful initiator responder ephemeral₁ ephemeral₂ offer (lits selection.encode)
    selection.suiteSchedule payloadSchedule
  rw [write] at write₁
  cases write₁
  rw [answer_eq (responderReadMessage1_ok read₁)] at answered
  have runnable := (responderMessage2_session answered).2.2.1
  rw [responderMessage2_ok runnable write₂] at answered
  cases answered
  have schedule : payloadSchedule (lits selection.encode : List β) = selection.suiteSchedule := by
    rw [payloadSchedule, lits_val, Selection.decode_encode]
  rw [schedule] at read₂
  exact ⟨runnable, _, clientFinalize_ok runnable read₂ rfl server, rfl,
    sessions_agree _ _ _ selection peer server label⟩

/-- A handshake whose selection passes its check completes on both sides: the offer
    arrives, the hash, the session id and the selection are the same, and each side
    sends with the key and the direction that the other receives with. -/
theorem handshake_agrees (lawful : prim.Lawful)
    (initiator responder ephemeral₁ ephemeral₂ offer : List β) (selection : Selection)
    (runnable : selection.check = .ok ()) (client server : SocketAddr) (label : Option String) :
    ∃ m₁ i₁ hello r₁ m₂ responded finalized,
      (new prim .initiator (.generate prim initiator)
        (some (prim.publicKey responder))).writeMessage1 prim ephemeral₁ offer =
      .ok (m₁, i₁) ∧
      (new prim .responder (.generate prim responder) none).responderReadMessage1 prim m₁ =
        .ok (hello, r₁) ∧
      r₁.responderMessage2 prim ephemeral₂ hello selection client label =
        .ok (m₂, responded) ∧
      i₁.clientFinalize prim m₂ server = .ok finalized ∧
      hello.peerStatic = prim.publicKey initiator ∧ hello.offer = offer ∧
        finalized.selection = selection ∧
      finalized.Agree responded := by
  obtain ⟨m₁, m₂, between, finish, write₁, read₁, write₂, -⟩ :=
    exchange prim lawful initiator responder ephemeral₁ ephemeral₂ offer (lits selection.encode)
    selection.suiteSchedule payloadSchedule
  have read := responderReadMessage1_ok read₁
  have respond :=
    responderMessage2_ok runnable write₂ ⟨prim.publicKey initiator, offer⟩ client label
  have answered := (answer_eq read ephemeral₂ selection client label).trans respond
  obtain ⟨-, finalized, finalize, selected, agree⟩ :=
    clientFinalize_answer lawful write₁ answered server
  exact ⟨m₁, _, _, _, m₂, _, finalized, write₁, read, respond, finalize, rfl, rfl,
    selected, agree⟩

/-- The default selection, with an offer of one byte. -/
theorem default_handshake_agrees :
    let prim := NoisePrimitives.summing
    ∃ m₁ i₁ hello r₁ m₂ responded finalized,
      (new prim .initiator (.generate prim [1]) (some (prim.publicKey [2]))).writeMessage1 prim [3]
        [9] = .ok (m₁, i₁) ∧
      (new prim .responder (.generate prim [2]) none).responderReadMessage1 prim m₁ =
        .ok (hello, r₁) ∧ r₁.responderMessage2 prim [4] hello .defaults ⟨.v4 0, 0⟩ none =
        .ok (m₂, responded) ∧ i₁.clientFinalize prim m₂ ⟨.v4 0, 0⟩ = .ok finalized ∧
      finalized.Agree responded := by
  obtain ⟨m₁, i₁, hello, r₁, m₂, responded, finalized, write, read, respond, finalize, -,
    -, -, agree⟩ :=
    handshake_agrees NoisePrimitives.summing_lawful [1] [2] [3] [4] [9] .defaults (by decide)
      ⟨.v4 0, 0⟩ ⟨.v4 0, 0⟩ none
  exact ⟨m₁, i₁, hello, r₁, m₂, responded, finalized, write, read, respond,
    finalize, agree⟩

end NoiseHandshake

end Rustnies
