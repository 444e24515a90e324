import Rustnies.Protocol.Header

/-! # Frame codecs

`protocol/frame.rs`: two encodings of one `PacketHeader`. `v1-fixed` is the
packed layout of `Header`; `v2-tlv` is a magic byte, a big-endian length and a
sequence of tag-length-value entries, in which a zero field is left out. The
dispatcher routes by `peekSessionId`, which must not need the session's codec.
-/

namespace Rustnies

inductive FrameError where
  | bufferTooSmall
  | badVersion (version : UInt8)
  | badType (byte : UInt8)
  | malformed (reason : String)
  | unknownCodec (name : String)
  | unknownCodecId (id : UInt8)
  deriving Repr, DecidableEq

def FrameError.ofHeaderError : HeaderError → FrameError
  | .bufferTooSmall => .bufferTooSmall
  | .badVersion v => .badVersion v
  | .badType b => .badType b

def FRAME_V1_FIXED : UInt8 := 1
def FRAME_V2_TLV : UInt8 := 2
def V1_ROUTE_PREFIX_LEN : Nat := 6
def V2_TLV_MAGIC : UInt8 := 0x52
def V2_TLV_PREAMBLE : Nat := 3

/-! ## `v1-fixed` -/

namespace V1Fixed

def maxHeaderLen : Nat := HEADER_LEN

def writeHeader (h : PacketHeader) (out : Bytes) : Except FrameError Bytes :=
  match h.writeTo (List.replicate HEADER_LEN 0) with
  | .ok written => .ok (out ++ written)
  | .error e => .error (.ofHeaderError e)

def readHeader (buf : Bytes) : Except FrameError PacketHeader :=
  (PacketHeader.readFrom buf).mapError .ofHeaderError

def looksLikeFrame (buf : Bytes) : Bool :=
  V1_ROUTE_PREFIX_LEN ≤ buf.length && byteAt buf 0 == PROTOCOL_VERSION &&
    (PacketType.fromByte (byteAt buf 1)).isSome

def peekSessionId (buf : Bytes) : Option SessionId :=
  if looksLikeFrame buf then some (u32Value (slice buf 2 6)) else none

def bodyOffset (frame : Bytes) : Nat := min HEADER_LEN frame.length

end V1Fixed

/-! ## `v2-tlv` -/

namespace V2Tlv

/-- The tags of a v2-tlv header, in wire order. -/
inductive Tag where
  | version
  | type
  | session
  | seq
  | ackSeq
  | ackBitmap
  | fecGroup
  | fecIndex
  | fecK
  | fecM
  | flags
  deriving Repr, DecidableEq

namespace Tag

def toByte : Tag → UInt8
  | .version => 0x01
  | .type => 0x02
  | .session => 0x03
  | .seq => 0x04
  | .ackSeq => 0x05
  | .ackBitmap => 0x06
  | .fecGroup => 0x07
  | .fecIndex => 0x08
  | .fecK => 0x09
  | .fecM => 0x0A
  | .flags => 0x0B

def ofByte : UInt8 → Option Tag
  | 0x01 => some .version
  | 0x02 => some .type
  | 0x03 => some .session
  | 0x04 => some .seq
  | 0x05 => some .ackSeq
  | 0x06 => some .ackBitmap
  | 0x07 => some .fecGroup
  | 0x08 => some .fecIndex
  | 0x09 => some .fecK
  | 0x0A => some .fecM
  | 0x0B => some .flags
  | _ => none

@[simp]
theorem ofByte_toByte (tag : Tag) : ofByte tag.toByte = some tag := by
  cases tag <;> rfl

theorem toByte_of_ofByte {b : UInt8} {tag : Tag} (known : ofByte b = some tag) :
    tag.toByte = b := by
  unfold ofByte at known
  split at known <;> cases known <;> rfl

end Tag

def maxHeaderLen : Nat :=
  V2_TLV_PREAMBLE + (1 + 1 + 1) + (1 + 1 + 1) + (1 + 1 + 4) + (1 + 1 + 4) + (1 + 1 + 4) +
    (1 + 1 + 4) + (1 + 1 + 2) + (1 + 1 + 1) + (1 + 1 + 1) + (1 + 1 + 1) + (1 + 1 + 1)

/-- One entry: tag, length, value. -/
def tlv (tag : Tag) (value : Bytes) : Bytes :=
  [tag.toByte, UInt8.ofNat value.length] ++ value

/-- The entries of a header: the first four always, the rest when not zero. -/
def headerBody (h : PacketHeader) : Bytes :=
  tlv .version [h.version] ++
  tlv .type [h.packetType.toByte] ++
  tlv .session (u32Bytes h.sessionId) ++
  tlv .seq (u32Bytes h.seq) ++
  (if h.ackSeq ≠ 0 then tlv .ackSeq (u32Bytes h.ackSeq) else []) ++
  (if h.ackBitmap ≠ 0 then tlv .ackBitmap (u32Bytes h.ackBitmap) else []) ++
  (if h.fecGroup ≠ 0 then tlv .fecGroup (u16Bytes h.fecGroup) else []) ++
  (if h.fecIndex ≠ 0 then tlv .fecIndex [h.fecIndex] else []) ++
  (if h.fecK ≠ 0 then tlv .fecK [h.fecK] else []) ++
  (if h.fecM ≠ 0 then tlv .fecM [h.fecM] else []) ++
  (if h.flags.isEmpty then [] else tlv .flags [h.flags.bits])

def writeHeader (h : PacketHeader) (out : Bytes) : Except FrameError Bytes :=
  let body := headerBody h
  if 65535 < body.length then .error (.malformed "tlv header exceeds 64 KiB")
  else .ok (out ++ [V2_TLV_MAGIC] ++ be16 body.length ++ body)

def u32v (value : Bytes) : Except FrameError UInt32 :=
  if value.length = 4 then .ok (u32Value value) else .error (.malformed "tlv value is not a u32")

def u16v (value : Bytes) : Except FrameError UInt16 :=
  if value.length = 2 then .ok (u16Value value) else .error (.malformed "tlv value is not a u16")

/-- `first().copied()`: a longer value is not refused. -/
def u8v : Bytes → Except FrameError UInt8
  | b :: _ => .ok b
  | [] => .error (.malformed "tlv value is not a u8")

/-- The locals of the parse loop. -/
structure Fields where
  version : UInt8 := PROTOCOL_VERSION
  packetType : Option PacketType := none
  sessionId : SessionId := 0
  seq : UInt32 := 0
  ackSeq : UInt32 := 0
  ackBitmap : UInt32 := 0
  fecGroup : UInt16 := 0
  fecIndex : UInt8 := 0
  fecK : UInt8 := 0
  fecM : UInt8 := 0
  flags : HeaderFlags := .NONE
  deriving Repr, DecidableEq

/-- The `match tag` of the parse loop. -/
def Fields.set (f : Fields) (tag : UInt8) (value : Bytes) : Except FrameError Fields :=
  match Tag.ofByte tag with
  | some .version => (u8v value).map fun v => { f with version := v }
  | some .type => (u8v value).bind fun b =>
      match PacketType.fromByte b with
      | some t => .ok { f with packetType := some t }
      | none => .error (.badType b)
  | some .session => (u32v value).map fun v => { f with sessionId := v }
  | some .seq => (u32v value).map fun v => { f with seq := v }
  | some .ackSeq => (u32v value).map fun v => { f with ackSeq := v }
  | some .ackBitmap => (u32v value).map fun v => { f with ackBitmap := v }
  | some .fecGroup => (u16v value).map fun v => { f with fecGroup := v }
  | some .fecIndex => (u8v value).map fun v => { f with fecIndex := v }
  | some .fecK => (u8v value).map fun v => { f with fecK := v }
  | some .fecM => (u8v value).map fun v => { f with fecM := v }
  | some .flags => (u8v value).map fun v => { f with flags := .fromBitsTruncate v }
  -- an unknown tag is skipped, not rejected
  | none => .ok f

/-- The parse loop, from the entry at hand. -/
def readTlvs (f : Fields) : Bytes → Except FrameError Fields
  | [] => .ok f
  | [_] => .error (.malformed "truncated tlv tag/length")
  | tag :: len :: rest =>
      if rest.length < len.toNat then .error (.malformed "tlv value runs past the header")
      else (f.set tag (rest.take len.toNat)).bind fun f' => readTlvs f' (rest.drop len.toNat)
termination_by body => body.length
decreasing_by
  simp only [List.length_drop, List.length_cons]
  omega

def Fields.finish (f : Fields) : Except FrameError PacketHeader :=
  match f.packetType with
  | none => .error (.malformed "v2-tlv frame has no packet type")
  | some packetType => .ok {
      version := f.version
      packetType := packetType
      sessionId := f.sessionId
      seq := f.seq
      ackSeq := f.ackSeq
      ackBitmap := f.ackBitmap
      fecGroup := f.fecGroup
      fecIndex := f.fecIndex
      fecK := f.fecK
      fecM := f.fecM
      flags := f.flags }

/-- The length the preamble announces. -/
def bodyLen (buf : Bytes) : Nat := be16Value (byteAt buf 1) (byteAt buf 2)

/-- The announced entries, `&buf[V2_TLV_PREAMBLE..end]`. -/
def entries (buf : Bytes) : Bytes := slice buf V2_TLV_PREAMBLE (V2_TLV_PREAMBLE + bodyLen buf)

/-- `3 + body_len` cannot overflow `usize`, so that error has no branch here. -/
def readHeader (buf : Bytes) : Except FrameError PacketHeader :=
  if buf.length < V2_TLV_PREAMBLE then .error .bufferTooSmall
  else if byteAt buf 0 ≠ V2_TLV_MAGIC then .error (.malformed "not a v2-tlv frame")
  else if buf.length < V2_TLV_PREAMBLE + bodyLen buf then .error (.malformed "tlv header truncated")
  else (readTlvs {} (entries buf)).bind Fields.finish

def looksLikeFrame (buf : Bytes) : Bool :=
  V2_TLV_PREAMBLE ≤ buf.length && byteAt buf 0 == V2_TLV_MAGIC

/-- The routing loop: the first complete session entry. -/
def peekTlvs : Bytes → Option SessionId
  | tag :: len :: rest =>
      if rest.length < len.toNat then none
      else if tag = Tag.session.toByte ∧ len.toNat = 4 then
        some (u32Value (rest.take len.toNat))
      else peekTlvs (rest.drop len.toNat)
  | _ => none
termination_by body => body.length
decreasing_by
  simp only [List.length_drop, List.length_cons]
  omega

def peekSessionId (buf : Bytes) : Option SessionId :=
  if !looksLikeFrame buf then none
  else if buf.length < V2_TLV_PREAMBLE + bodyLen buf then none
  else peekTlvs (entries buf)

def bodyOffset (frame : Bytes) : Nat :=
  if frame.length < V2_TLV_PREAMBLE || byteAt frame 0 != V2_TLV_MAGIC then 0
  else min (V2_TLV_PREAMBLE + bodyLen frame) frame.length

end V2Tlv

/-! ## The seam -/

inductive FrameCodec where
  | v1Fixed
  | v2Tlv
  deriving Repr, DecidableEq

namespace FrameCodec

def name : FrameCodec → String
  | .v1Fixed => "v1-fixed"
  | .v2Tlv => "v2-tlv"

def wireId : FrameCodec → UInt8
  | .v1Fixed => FRAME_V1_FIXED
  | .v2Tlv => FRAME_V2_TLV

def maxHeaderLen : FrameCodec → Nat
  | .v1Fixed => V1Fixed.maxHeaderLen
  | .v2Tlv => V2Tlv.maxHeaderLen

def writeHeader : FrameCodec → PacketHeader → Bytes → Except FrameError Bytes
  | .v1Fixed => V1Fixed.writeHeader
  | .v2Tlv => V2Tlv.writeHeader

def readHeader : FrameCodec → Bytes → Except FrameError PacketHeader
  | .v1Fixed => V1Fixed.readHeader
  | .v2Tlv => V2Tlv.readHeader

def looksLikeFrame : FrameCodec → Bytes → Bool
  | .v1Fixed => V1Fixed.looksLikeFrame
  | .v2Tlv => V2Tlv.looksLikeFrame

def peekSessionId : FrameCodec → Bytes → Option SessionId
  | .v1Fixed => V1Fixed.peekSessionId
  | .v2Tlv => V2Tlv.peekSessionId

def bodyOffset : FrameCodec → Bytes → Nat
  | .v1Fixed => V1Fixed.bodyOffset
  | .v2Tlv => V2Tlv.bodyOffset

/-- `write_header(..).expect(..)` into an empty buffer; `writeHeader_eq` shows that
    the `expect` never fails. -/
def encodeHeader (codec : FrameCodec) (h : PacketHeader) : Bytes :=
  ((codec.writeHeader h []).toOption).getD []

def encodeFrame (codec : FrameCodec) (h : PacketHeader) (ciphertext : Bytes) : Bytes :=
  codec.encodeHeader h ++ ciphertext

end FrameCodec

def ALL_CODECS : List FrameCodec := [.v1Fixed, .v2Tlv]

def peekAnySessionId (buf : Bytes) : Option SessionId :=
  ALL_CODECS.findSome? fun codec => codec.peekSessionId buf

def buildFrameCodec (name : String) : Except FrameError FrameCodec :=
  match name with
  | "v1-fixed" => .ok .v1Fixed
  | "v2-tlv" => .ok .v2Tlv
  | other => .error (.unknownCodec other)

def frameCodecById (id : UInt8) : Except FrameError FrameCodec :=
  if id = FRAME_V1_FIXED then .ok .v1Fixed
  else if id = FRAME_V2_TLV then .ok .v2Tlv
  else .error (.unknownCodecId id)

end Rustnies
