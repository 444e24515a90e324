import Rustnies.Protocol.Header

/-! # Session state

`protocol/session.rs`: sequence allocation, the replay window of the reliable
channel, and the sliding selective-ack window. Methods that take `&mut self`
return the new value.
-/

namespace Rustnies

/-- The first four hash bytes, big-endian; zero is reserved and becomes one. -/
def sessionIdFromHash {β : Type} [Byte β] (h : List β) : SessionId :=
  let id : UInt32 := (h.take 4).foldl (fun id b => (id <<< 8) ||| (Byte.val b).toUInt32) 0
  if id = 0 then 1 else id

theorem sessionIdFromHash_ne_zero {β : Type} [Byte β] (h : List β) :
    sessionIdFromHash h ≠ 0 := by
  simp only [sessionIdFromHash]
  split
  · decide
  · assumption

inductive SessionRole where
  | initiator
  | responder
  deriving Repr, DecidableEq

def WINDOW : UInt32 := 64

structure ReplayWindow where
  highest : UInt32
  bits : UInt64
  deriving Repr, DecidableEq

namespace ReplayWindow

def new : ReplayWindow := ⟨0, 0⟩

def checkAndRecord (w : ReplayWindow) (seq : UInt32) : Bool × ReplayWindow :=
  if seq = 0 then (false, w)
  else if w.highest < seq then
    let shift := seq - w.highest
    let bits := if WINDOW ≤ shift then 0 else w.bits <<< shift.toUInt64
    (true, { highest := seq, bits := bits ||| 1 })
  else
    let back := w.highest - seq
    if WINDOW ≤ back then (false, w)
    else
      let mask := (1 : UInt64) <<< back.toUInt64
      if w.bits &&& mask ≠ 0 then (false, w)
      else (true, { w with bits := w.bits ||| mask })

end ReplayWindow

/-- Bit `i` of `bitmap` says that `anchor - 1 - i` was received. -/
structure AckTracker where
  anchor : UInt32 := 0
  bitmap : UInt32 := 0
  deriving Repr, DecidableEq

namespace AckTracker

def record (a : AckTracker) (seq : UInt32) : AckTracker :=
  if seq = 0 then a
  else if a.anchor = 0 then { a with anchor := seq }
  else
    let advance := seq - a.anchor
    if advance = 0 then a
    else if advance ≤ 0x7FFFFFFF then
      let slid := if 32 ≤ advance then 0 else a.bitmap <<< advance
      let bitmap := if advance ≤ 32 then slid ||| (1 <<< (advance - 1)) else slid
      { anchor := seq, bitmap := bitmap }
    else
      let back := a.anchor - seq
      if 1 ≤ back ∧ back ≤ 32 then { a with bitmap := a.bitmap ||| (1 <<< (back - 1)) } else a

def snapshot (a : AckTracker) : UInt32 × UInt32 := (a.anchor, a.bitmap)

end AckTracker

structure Session where
  id : SessionId
  role : SessionRole
  nextSeq : UInt32
  replay : ReplayWindow
  ack : AckTracker
  peerAck : UInt32
  peerBitmap : UInt32
  deriving Repr, DecidableEq

namespace Session

def new (id : SessionId) (role : SessionRole) : Session where
  id := id
  role := role
  nextSeq := 1
  replay := .new
  ack := {}
  peerAck := 0
  peerBitmap := 0

/-- `wrapping_add`: after `0xFFFFFFFF` comes `0`. -/
def allocSeq (s : Session) : UInt32 × Session := (s.nextSeq, { s with nextSeq := s.nextSeq + 1 })

def observeAcks (s : Session) (ackSeq ackBitmap : UInt32) : Session :=
  { s with peerAck := ackSeq, peerBitmap := ackBitmap }

def peerAcked (s : Session) (seq : UInt32) : Bool :=
  if seq = 0 ∨ s.peerAck = 0 then false
  else if seq = s.peerAck then true
  else
    let back := s.peerAck - seq
    if 1 ≤ back ∧ back ≤ 32 then (s.peerBitmap >>> (back - 1)) &&& 1 == 1 else false

def receiveReliable (s : Session) (seq : UInt32) : Bool × Session :=
  let (fresh, replay) := s.replay.checkAndRecord seq
  if fresh then (true, { s with replay := replay, ack := s.ack.record seq })
  else (false, { s with replay := replay })

def ackSnapshot (s : Session) : UInt32 × UInt32 := s.ack.snapshot

/-! Only `alloc_seq` moves the counter, and no operation changes the id. -/

@[simp]
theorem allocSeq_fst (s : Session) : s.allocSeq.1 = s.nextSeq := rfl

@[simp]
theorem allocSeq_nextSeq (s : Session) : s.allocSeq.2.nextSeq = s.nextSeq + 1 := rfl

@[simp]
theorem allocSeq_id (s : Session) : s.allocSeq.2.id = s.id := rfl

@[simp]
theorem observeAcks_nextSeq (s : Session) (a b : UInt32) :
    (s.observeAcks a b).nextSeq = s.nextSeq :=
  rfl

@[simp]
theorem observeAcks_id (s : Session) (a b : UInt32) : (s.observeAcks a b).id = s.id := rfl

@[simp]
theorem receiveReliable_nextSeq (s : Session) (seq : UInt32) :
    (s.receiveReliable seq).2.nextSeq = s.nextSeq := by
  simp only [receiveReliable]
  split <;> rfl

@[simp]
theorem receiveReliable_id (s : Session) (seq : UInt32) : (s.receiveReliable seq).2.id = s.id := by
  simp only [receiveReliable]
  split <;> rfl

end Session

end Rustnies
