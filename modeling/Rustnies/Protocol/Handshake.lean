import Rustnies.Carrier
import Rustnies.Crypto.Noise
import Rustnies.Obfuscation
import Rustnies.Protocol.Profile
import Rustnies.Protocol.Session

/-! # The handshake

`protocol/handshake.rs` and the responder half of `tunnel/handshake.rs`: what a
completed key exchange hands to the tunnel, and the treatment of one message 1
from the envelope to message 2. Every refusal is `none`.
-/

namespace Rustnies

def DEFAULT_HANDSHAKE : String := "noise-ik"
/-- The ephemeral, the sealed static key. -/
def MSG1_MIN : Nat := 32 + 32 + 16
/-- The ephemeral and the tag of an empty payload. -/
def MSG2_MIN : Nat := 32 + 16

inductive HandshakeError where
  | kex (e : NoiseError)
  | unsupportedKex (name : String)
  | incompatibleProfile (e : ProfileError)
  deriving Repr, DecidableEq

inductive HandshakeKind where
  | noiseIk
  deriving Repr, DecidableEq

def selectHandshake (name : String) : Except HandshakeError HandshakeKind :=
  if trim name = "" ∨ trim name = DEFAULT_HANDSHAKE ∨ trim name = "rustnies" then .ok .noiseIk
  else .error (.unsupportedKex (trim name))

variable {β : Type} [Byte β]

/-- What the responder learns from message 1. -/
structure InitiatorHello (β : Type) where
  peerStatic : List β
  offer : List β

structure SessionEstablished (β : Type) where
  peer : SocketAddr
  sessionId : SessionId
  sendKey : List β
  recvKey : List β
  sendDir : Direction
  recvDir : Direction
  peerStatic : List β
  peerLabel : Option String
  handshakeHash : List β
  selection : Selection

/-- Whether a static key may connect, and the label of its entry. -/
abbrev Authorizer (β : Type) := List β → Bool × Option String

namespace NoiseHandshake

variable (prim : NoisePrimitives β)

def responderReadMessage1 (s : NoiseHandshake β) (msg1 : List β) :
    Except HandshakeError (InitiatorHello β × NoiseHandshake β) :=
  match s.readMessage1 prim msg1 with
  | .error e => .error (.kex e)
  | .ok ((peerStatic, offer), s) => .ok (⟨peerStatic, offer⟩, s)

/-- The selection is the payload, and its suite's context goes into the keys. -/
def responderMessage2 (s : NoiseHandshake β) (ephemeral : List β) (hello : InitiatorHello β)
    (selection : Selection) (peer : SocketAddr) (peerLabel : Option String) :
    Except HandshakeError (List β × SessionEstablished β) :=
  match selection.check with
  | .error e => .error (.incompatibleProfile e)
  | .ok () =>
      match s.writeMessage2 prim ephemeral (lits selection.encode) selection.suiteSchedule with
      | .error e => .error (.kex e)
      | .ok ((m2, result), _) => .ok (m2, {
          peer := peer
          sessionId := sessionIdFromHash result.handshakeHash
          sendKey := result.keyR2i
          recvKey := result.keyI2r
          sendDir := .responderToInitiator
          recvDir := .initiatorToResponder
          peerStatic := hello.peerStatic
          peerLabel := peerLabel
          handshakeHash := result.handshakeHash
          selection := selection })

/-- The context for the keys, read out of the payload of message 2. -/
def payloadSchedule (payload : List β) : Bytes :=
  match Selection.decode (payload.map Byte.val) with
  | .ok selection => selection.suiteSchedule
  | .error _ => Selection.defaults.suiteSchedule

def clientFinalize (s : NoiseHandshake β) (msg2 : List β) (peer : SocketAddr) :
    Except HandshakeError (SessionEstablished β) :=
  match s.readMessage2 prim msg2 payloadSchedule with
  | .error e => .error (.kex e)
  | .ok ((payload, result), s) =>
      match Selection.decode (payload.map Byte.val) with
      | .error e => .error (.incompatibleProfile e)
      | .ok selection =>
          match selection.check with
          | .error e => .error (.incompatibleProfile e)
          | .ok () =>
              match s.peerStatic with
              | none => .error (.kex .missingPeerStatic)
              | some peerStatic => .ok {
                  peer := peer
                  sessionId := sessionIdFromHash result.handshakeHash
                  sendKey := result.keyI2r
                  recvKey := result.keyR2i
                  sendDir := .initiatorToResponder
                  recvDir := .responderToInitiator
                  peerStatic := peerStatic
                  peerLabel := none
                  handshakeHash := result.handshakeHash
                  selection := selection }

end NoiseHandshake

section Responder

variable (prim : NoisePrimitives β)

/-- The handshake message inside a datagram: the envelope and the layers undone, and
    long enough for a message 1. -/
def framedMessage1 (profile : LocalProfile) (obfuscation : ObfuscationStack β)
    (msg1Wire : List β) :
    Option (List β) :=
  match profile.handshakeTransport.unwrap msg1Wire with
  | .error _ => none
  | .ok unwrapped =>
      match obfuscation.reverse unwrapped with
      | .error _ => none
      | .ok unwrapped => if unwrapped.length < MSG1_MIN then none else some unwrapped

/-- The first step of the responder, up to the initiator's static key. -/
def readHello (serverKp : KeyPair β) (profile : LocalProfile) (obfuscation : ObfuscationStack β)
    (msg1Wire : List β) : Option (InitiatorHello β × NoiseHandshake β) :=
  match framedMessage1 profile obfuscation msg1Wire with
  | none => none
  | some msg1 =>
      match selectHandshake profile.kexName with
      | .error _ => none
      | .ok .noiseIk =>
          ((NoiseHandshake.new prim .responder serverKp none).responderReadMessage1 prim
            msg1).toOption

/-- `None` accepts every key, without a label. -/
def authorize (authorizer : Option (Authorizer β)) (key : List β) : Option (Option String) :=
  match authorizer with
  | none => some none
  | some auth => if (auth key).1 then some (auth key).2 else none

/-- The answer to one message 1: the session and the datagram that carries message 2.
    An offer that cannot be decoded counts as none. -/
def respondMessage1 (serverKp : KeyPair β) (profile : LocalProfile)
    (obfuscation : ObfuscationStack β) (msg1Wire : List β) (peer : SocketAddr)
    (authorizer : Option (Authorizer β)) (ephemeral : List β) :
    Option (SessionEstablished β × List β) :=
  match readHello prim serverKp profile obfuscation msg1Wire with
  | none => none
  | some (hello, hs) =>
      match authorize authorizer hello.peerStatic with
      | none => none
      | some peerLabel =>
          let offer := ((ClientOffer.decode (hello.offer.map Byte.val)).toOption).join
          match negotiate profile.prefs offer profile.dataTag with
          | .error _ => none
          | .ok selection =>
              match hs.responderMessage2 prim ephemeral hello selection peer peerLabel with
              | .error _ => none
              | .ok (m2, established) =>
                  some (established, profile.handshakeTransport.wrap (obfuscation.apply m2))

variable {prim}

/-- The session has the key of the hello, a selection that passed its check, the address
    the hello came from, and the id of its hash. -/
theorem NoiseHandshake.responderMessage2_session {s : NoiseHandshake β} {ephemeral m2 : List β}
    {hello : InitiatorHello β} {selection : Selection} {peer : SocketAddr} {label : Option String}
    {established : SessionEstablished β}
    (built : s.responderMessage2 prim ephemeral hello selection peer label =
      .ok (m2, established)) :
    established.peerStatic = hello.peerStatic ∧ established.selection = selection ∧
    selection.check = .ok () ∧ established.peer = peer ∧
    established.sessionId = sessionIdFromHash established.handshakeHash := by
  simp only [responderMessage2] at built
  cases checked : selection.check with
  | error e => simp [checked] at built
  | ok =>
      simp only [checked] at built
      split at built
      · cases built
      · cases built
        exact ⟨rfl, rfl, rfl, rfl, rfl⟩

theorem respondMessage1_some {serverKp : KeyPair β} {profile : LocalProfile}
    {obfuscation : ObfuscationStack β} {msg1Wire : List β} {peer : SocketAddr}
    {authorizer : Option (Authorizer β)} {ephemeral wire : List β}
    {established : SessionEstablished β}
    (answered : respondMessage1 prim serverKp profile obfuscation msg1Wire peer authorizer
      ephemeral = some (established, wire)) :
    ∃ hello hs label, readHello prim serverKp profile obfuscation msg1Wire = some (hello, hs) ∧
      authorize authorizer hello.peerStatic = some label ∧
      established.peerStatic = hello.peerStatic ∧ established.selection.check = .ok () ∧
      established.peer = peer ∧
      established.sessionId = sessionIdFromHash established.handshakeHash := by
  simp only [respondMessage1] at answered
  cases read : readHello prim serverKp profile obfuscation msg1Wire with
  | none => simp [read] at answered
  | some hello =>
      obtain ⟨hello, hs⟩ := hello
      simp only [read] at answered
      cases authorized : authorize authorizer hello.peerStatic with
      | none => simp [authorized] at answered
      | some label =>
          simp only [authorized] at answered
          split at answered
          · cases answered
          · split at answered
            · cases answered
            · rename_i built
              cases answered
              obtain ⟨key, selected, checked, address, named⟩ :=
                NoiseHandshake.responderMessage2_session built
              exact ⟨hello, hs, label, rfl, authorized, key, selected ▸ checked,
                address, named⟩

end Responder

end Rustnies
