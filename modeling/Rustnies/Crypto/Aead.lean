import Rustnies.Protocol.Header

/-! # Packet nonces and the AEAD

`crypto/aead.rs`. ChaCha20-Poly1305 itself is outside the repository: it enters
as the two functions that the code calls, and each result names what it needs of
them. A refused encryption or a tag mismatch is `none`.
-/

namespace Rustnies

def TAG_LEN : Nat := 16

inductive Direction where
  | initiatorToResponder
  | responderToInitiator
  deriving Repr, DecidableEq

def Direction.toByte : Direction → UInt8
  | .initiatorToResponder => 0
  | .responderToInitiator => 1

/-- `session_id || seq || dir || 0 0 0`, little-endian. -/
def makeNonce (sessionId : SessionId) (seq : UInt32) (dir : Direction) : Bytes :=
  u32Bytes sessionId ++ u32Bytes seq ++ [dir.toByte] ++ [0, 0, 0]

/-- The cipher as the code uses it: key, nonce, associated data, message. -/
structure Aead (β : Type) where
  encrypt : List β → List β → List β → List β → Option (List β)
  decrypt : List β → List β → List β → List β → Option (List β)

theorem makeNonce_injective {sid sid' : SessionId} {seq seq' : UInt32} {dir dir' : Direction}
    (same : makeNonce sid seq dir = makeNonce sid' seq' dir') : sid = sid' ∧ seq = seq' := by
  have split := List.append_inj (List.append_inj (List.append_inj same rfl).1 (by simp)).1 (by simp)
  exact ⟨u32Bytes_injective split.1, u32Bytes_injective split.2⟩

end Rustnies
