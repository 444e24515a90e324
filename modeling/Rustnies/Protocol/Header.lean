import Rustnies.Bytes
import Mathlib.Tactic.Common

/-! # The packet header and its fixed layout

`protocol/header.rs`: the semantic fields every packet carries, the closed set
of packet types, and the 24-byte little-endian layout that `write_to` and
`read_from` implement. Both are partial: a buffer that is too short, a version
byte other than `0x01` and an unknown packet type are errors.
-/

namespace Rustnies

def PROTOCOL_VERSION : UInt8 := 0x01
def HEADER_LEN : Nat := 24
def AEAD_TAG_LEN : Nat := 16
def UDP_HEADER_LEN : Nat := 8
def IPV4_HEADER_LEN : Nat := 20
def OUTER_OVERHEAD : Nat := UDP_HEADER_LEN + IPV4_HEADER_LEN
def PATH_MTU : Nat := 1500
def MAX_PAYLOAD : Nat := 1400 - HEADER_LEN - AEAD_TAG_LEN

abbrev SessionId := UInt32

/-- The reserved flag bits of a header. -/
structure HeaderFlags where
  bits : UInt8
  deriving Repr, DecidableEq

namespace HeaderFlags

def NONE : HeaderFlags := ⟨0⟩

/-- Every assigned flag: `NONE` is the only constant, so no bit is assigned. -/
def all : HeaderFlags := ⟨NONE.bits⟩

/-- Unassigned bits are dropped silently. -/
def fromBitsTruncate (bits : UInt8) : HeaderFlags := ⟨bits &&& all.bits⟩

def isEmpty (flags : HeaderFlags) : Bool := flags.bits == 0

@[simp]
theorem fromBitsTruncate_eq (bits : UInt8) : fromBitsTruncate bits = NONE := by
  simp [fromBitsTruncate, all, NONE]

end HeaderFlags

inductive PacketType where
  | handshake1
  | handshake2
  | data
  | ack
  | fec
  | ping
  | pong
  | close
  | keepalive
  deriving Repr, DecidableEq

namespace PacketType

/-- `packet_type as u8`. -/
def toByte : PacketType → UInt8
  | .handshake1 => 1
  | .handshake2 => 2
  | .data => 3
  | .ack => 4
  | .fec => 5
  | .ping => 6
  | .pong => 7
  | .close => 8
  | .keepalive => 9

def fromByte : UInt8 → Option PacketType
  | 1 => some .handshake1
  | 2 => some .handshake2
  | 3 => some .data
  | 4 => some .ack
  | 5 => some .fec
  | 6 => some .ping
  | 7 => some .pong
  | 8 => some .close
  | 9 => some .keepalive
  | _ => none

/-- Sequenced, retransmitted and acked. -/
def isReliable : PacketType → Bool
  | .handshake1 | .handshake2 | .close => true
  | _ => false

@[simp]
theorem fromByte_toByte (t : PacketType) : fromByte t.toByte = some t := by
  cases t <;> rfl

theorem toByte_of_fromByte {b : UInt8} {t : PacketType} (known : fromByte b = some t) :
    t.toByte = b := by
  unfold fromByte at known
  split at known <;> cases known <;> rfl

end PacketType

structure PacketHeader where
  version : UInt8
  packetType : PacketType
  sessionId : SessionId
  seq : UInt32
  ackSeq : UInt32
  ackBitmap : UInt32
  fecGroup : UInt16
  fecIndex : UInt8
  fecK : UInt8
  fecM : UInt8
  flags : HeaderFlags
  deriving Repr, DecidableEq

inductive HeaderError where
  | bufferTooSmall
  | badVersion (version : UInt8)
  | badType (byte : UInt8)
  deriving Repr, DecidableEq

namespace PacketHeader

def new (packetType : PacketType) (sessionId : SessionId) (seq : UInt32) : PacketHeader where
  version := PROTOCOL_VERSION
  packetType := packetType
  sessionId := sessionId
  seq := seq
  ackSeq := 0
  ackBitmap := 0
  fecGroup := 0
  fecIndex := 0
  fecK := 0
  fecM := 0
  flags := .NONE

/-- What every header built by the program satisfies: `new` sets the version and
    the empty flags, and no caller changes either. -/
structure Current (h : PacketHeader) : Prop where
  version : h.version = PROTOCOL_VERSION
  flags : h.flags = .NONE

/-- The packed layout, field after field. -/
def toBytes (h : PacketHeader) : Bytes :=
  [h.version] ++ [h.packetType.toByte] ++ u32Bytes h.sessionId ++ u32Bytes h.seq ++
    u32Bytes h.ackSeq ++ u32Bytes h.ackBitmap ++ u16Bytes h.fecGroup ++
    [h.fecIndex] ++ [h.fecK] ++ [h.fecM] ++ [h.flags.bits]

def writeTo (h : PacketHeader) (buf : Bytes) : Except HeaderError Bytes :=
  if buf.length < HEADER_LEN then .error .bufferTooSmall
  else .ok (h.toBytes ++ buf.drop HEADER_LEN)

def readFrom (buf : Bytes) : Except HeaderError PacketHeader :=
  if buf.length < HEADER_LEN then .error .bufferTooSmall
  else if byteAt buf 0 ≠ PROTOCOL_VERSION then .error (.badVersion (byteAt buf 0))
  else
    match PacketType.fromByte (byteAt buf 1) with
    | none => .error (.badType (byteAt buf 1))
    | some packetType => .ok {
        version := byteAt buf 0
        packetType := packetType
        sessionId := u32Value (slice buf 2 6)
        seq := u32Value (slice buf 6 10)
        ackSeq := u32Value (slice buf 10 14)
        ackBitmap := u32Value (slice buf 14 18)
        fecGroup := u16Value (slice buf 18 20)
        fecIndex := byteAt buf 20
        fecK := byteAt buf 21
        fecM := byteAt buf 22
        flags := .fromBitsTruncate (byteAt buf 23) }

theorem new_current (t : PacketType) (sid : SessionId) (seq : UInt32) : (new t sid seq).Current :=
  ⟨rfl, rfl⟩

@[simp]
theorem toBytes_length (h : PacketHeader) : h.toBytes.length = HEADER_LEN := by
  simp [toBytes, HEADER_LEN]

/-- Where each field stands in the layout. -/
private theorem toBytes_fields (h : PacketHeader) (rest : Bytes) :
    slice (h.toBytes ++ rest) 2 6 = u32Bytes h.sessionId ∧
    slice (h.toBytes ++ rest) 6 10 = u32Bytes h.seq ∧
    slice (h.toBytes ++ rest) 10 14 = u32Bytes h.ackSeq ∧
    slice (h.toBytes ++ rest) 14 18 = u32Bytes h.ackBitmap ∧
    slice (h.toBytes ++ rest) 18 20 = u16Bytes h.fecGroup ∧
    byteAt (h.toBytes ++ rest) 20 = h.fecIndex ∧
    byteAt (h.toBytes ++ rest) 21 = h.fecK ∧
    byteAt (h.toBytes ++ rest) 22 = h.fecM := by
  refine ⟨?_, ?_, ?_, ?_, ?_, ?_, ?_, ?_⟩
  all_goals
    simp [toBytes, slice, byteAt, List.drop_append, List.drop_of_length_le, List.getElem?_append]

theorem readFrom_toBytes {h : PacketHeader} (current : h.Current) (rest : Bytes) :
    readFrom (h.toBytes ++ rest) = .ok h := by
  have long : ¬ (h.toBytes ++ rest).length < HEADER_LEN := by
    simp
  have version : byteAt (h.toBytes ++ rest) 0 = h.version := rfl
  have type : byteAt (h.toBytes ++ rest) 1 = h.packetType.toByte := rfl
  obtain ⟨sid, seq, ackSeq, ackBitmap, group, index, k, m⟩ := toBytes_fields h rest
  rw [readFrom, if_neg long, version, if_neg (not_not.mpr current.version), type,
    PacketType.fromByte_toByte, sid, seq, ackSeq, ackBitmap, group, index, k, m]
  simp only [u32Value_u32Bytes, u16Value_u16Bytes, HeaderFlags.fromBitsTruncate_eq,
    ← current.flags]

/-- The parse does not look past byte 22, except for the length. -/
theorem readFrom_append_congr {front back back' : Bytes} (width : front.length = 23)
    (nonempty : back ≠ []) (nonempty' : back' ≠ []) :
    readFrom (front ++ back) = readFrom (front ++ back') := by
  have long : ∀ tail : Bytes, tail ≠ [] → ¬ (front ++ tail).length < HEADER_LEN := by
    intro tail nonempty
    have := List.length_pos_of_ne_nil nonempty
    simp only [List.length_append, width, HEADER_LEN]
    omega
  have byte : ∀ (tail : Bytes) (i : Nat), i < 23 → byteAt (front ++ tail) i = byteAt front i :=
    fun tail i inside => byteAt_append_left (width ▸ inside)
  have field : ∀ (tail : Bytes) (i j : Nat), j ≤ 23 → slice (front ++ tail) i j =
    slice front i j :=
    fun tail i j inside => slice_append_left (width ▸ inside)
  simp (disch := decide) only [readFrom, if_neg (long back nonempty), if_neg (long back' nonempty'),
    byte, field, HeaderFlags.fromBitsTruncate_eq]

theorem toBytes_of_readFrom {buf : Bytes} {h : PacketHeader} (accepted : readFrom buf = .ok h) :
    h.Current ∧ HEADER_LEN ≤ buf.length ∧ h.toBytes = buf.take 23 ++ [0] := by
  unfold readFrom at accepted
  split at accepted
  · cases accepted
  · rename_i long
    rw [Nat.not_lt] at long
    split at accepted
    · cases accepted
    · rename_i version
      rw [not_not] at version
      split at accepted
      · cases accepted
      · rename_i type known
        cases accepted
        refine ⟨⟨version, HeaderFlags.fromBitsTruncate_eq _⟩, long, ?_⟩
        have width : ∀ i j, j ≤ 24 → i ≤ j → (slice buf i j).length = j - i :=
          fun i j inside _ => slice_length (Nat.le_trans inside long)
        have single : ∀ i, i < 24 → [byteAt buf i] = slice buf i (i + 1) := fun i inside =>
          singleton_byteAt (Nat.lt_of_lt_of_le inside long)
        simp only [toBytes, PacketType.toByte_of_fromByte known, HeaderFlags.fromBitsTruncate_eq,
          HeaderFlags.NONE,
          u32Bytes_u32Value (width 2 6 (by omega) (by omega)),
          u32Bytes_u32Value (width 6 10 (by omega) (by omega)),
          u32Bytes_u32Value (width 10 14 (by omega) (by omega)),
          u32Bytes_u32Value (width 14 18 (by omega) (by omega)),
          u16Bytes_u16Value (width 18 20 (by omega) (by omega)),
          single 0 (by omega), single 1 (by omega), single 20 (by omega), single 21 (by omega),
          single 22 (by omega)]
        simp only [slice_zero, take_append_slice, Nat.reduceAdd, Nat.reduceLeDiff]

/-- A buffer is read as a current header exactly when it is long enough and agrees
    with the layout in every byte but the flags. -/
theorem readFrom_ok_iff {buf : Bytes} {h : PacketHeader} (current : h.Current) :
    readFrom buf = .ok h ↔ HEADER_LEN ≤ buf.length ∧ buf.take 23 = h.toBytes.take 23 := by
  constructor
  · intro accepted
    obtain ⟨-, long, layout⟩ := toBytes_of_readFrom accepted
    have width : (buf.take 23).length = 23 := by
      rw [List.length_take]
      simp only [HEADER_LEN] at long
      omega
    exact ⟨long, by rw [layout, List.take_left' width]⟩
  · rintro ⟨long, agree⟩
    have width : ∀ bs : Bytes, HEADER_LEN ≤ bs.length → (bs.take 23).length = 23 ∧
      bs.drop 23 ≠ [] := by
      intro bs long
      simp only [HEADER_LEN] at long
      refine ⟨by rw [List.length_take]; omega, fun empty => ?_⟩
      have := congrArg List.length empty
      simp at this
      omega
    obtain ⟨front, back⟩ := width buf long
    obtain ⟨-, back'⟩ := width h.toBytes (Nat.le_of_eq (toBytes_length h).symm)
    calc
      readFrom buf = readFrom (buf.take 23 ++ buf.drop 23) := by rw [List.take_append_drop]
      _ = readFrom (buf.take 23 ++ h.toBytes.drop 23) := readFrom_append_congr front back back'
      _ = readFrom (h.toBytes ++ []) := by rw [agree, List.take_append_drop, List.append_nil]
      _ = .ok h := readFrom_toBytes current []

end PacketHeader

end Rustnies
