import Rustnies.Bytes

/-! # Transports

`transport/mod.rs`: the envelope around one message. `plain` is the identity,
`tagged` puts a two-byte marker in front. Every transport of the build is
stateless, so `init` does nothing and has no counterpart here.
-/

namespace Rustnies

inductive TransportError where
  | unwrapFailed
  | tooLarge (size : Nat)
  deriving Repr, DecidableEq

inductive Transport where
  | plain
  | tagged (first second : UInt8)
  deriving Repr, DecidableEq

def DEFAULT_TAG : UInt8 × UInt8 := (0x52, 0x4E)
def TRANSPORT_PLAIN : UInt8 := 1
def TRANSPORT_TAGGED : UInt8 := 2

namespace Transport

variable {β : Type} [Byte β]

def wrap (t : Transport) (frame : List β) : List β :=
  match t with
  | .plain => frame
  | .tagged first second => lits [first, second] ++ frame

def unwrap (t : Transport) (message : List β) : Except TransportError (List β) :=
  match t with
  | .plain => .ok message
  | .tagged first second =>
      if message.length < 2 then .error .unwrapFailed
      else if (message.take 2).map Byte.val ≠ [first, second] then .error .unwrapFailed
      else .ok (message.drop 2)

@[simp]
theorem unwrap_wrap (t : Transport) (frame : List β) : t.unwrap (t.wrap frame) = .ok frame := by
  cases t with
  | plain => rfl
  | tagged first second =>
      simp [wrap, unwrap, lits, Byte.val_lit]

theorem wrap_length_le (t : Transport) (frame : List β) :
    (t.wrap frame).length ≤ frame.length + 2 := by
  cases t with
  | plain => exact Nat.le_add_right _ _
  | tagged first second =>
      simp only [wrap, lits, List.length_append, List.length_map, List.length_cons, List.length_nil]
      omega

theorem wrap_injective (t : Transport) {f f' : List β} (same : t.wrap f = t.wrap f') : f = f' := by
  have unwrapped := unwrap_wrap t f
  rw [same, unwrap_wrap] at unwrapped
  exact (Except.ok.inj unwrapped).symm

end Transport

def buildTransportId (id : UInt8) (tag : UInt8 × UInt8) : Option Transport :=
  if id = TRANSPORT_PLAIN then some .plain
  else if id = TRANSPORT_TAGGED then some (.tagged tag.1 tag.2)
  else none

end Rustnies
