import Rustnies.Protocol.FrameGrammar
import Rustnies.Server.Loop

/-! # Routing under header whitening

The whitening layer covers the first 24 bytes of a frame, and the dispatcher undoes it
with a keystream as long as the longest header of the session's codec. For the TLV layout
that is more, so the bytes behind the 24th come out garbled. The routing peek finds the
session id before it gets there.
-/

namespace Rustnies

namespace FrameCodec

/-! ## How far the routing peek looks -/

/-- The front of a frame: the session id is the last that stands in it. -/
def routeFront (codec : FrameCodec) (h : PacketHeader) : Bytes :=
  match codec with
  | .v1Fixed => [h.version, h.packetType.toByte] ++ u32Bytes h.sessionId
  | .v2Tlv => [V2_TLV_MAGIC] ++ be16 (V2Tlv.headerBody h).length ++
      V2Tlv.spell [V2Tlv.entry h .version, V2Tlv.entry h .type, V2Tlv.entry h .session]

theorem routeFront_length_le (codec : FrameCodec) (h : PacketHeader) :
    (codec.routeFront h).length ≤ HEADER_LEN := by
  cases codec <;> simp [routeFront, V2Tlv.Tlv.bytes, V2Tlv.entry, V2Tlv.Tag.field, HEADER_LEN]

theorem headerBody_eq (h : PacketHeader) :
    ∃ later, V2Tlv.headerBody h =
      V2Tlv.spell [V2Tlv.entry h .version, V2Tlv.entry h .type, V2Tlv.entry h .session] ++
      V2Tlv.spell later := by
  obtain ⟨later, entries⟩ : ∃ later, V2Tlv.headerEntries h =
      [V2Tlv.entry h .version, V2Tlv.entry h .type, V2Tlv.entry h .session] ++ later := ⟨_, rfl⟩
  exact ⟨later, by rw [← V2Tlv.spell_headerEntries, entries, V2Tlv.spell_append]⟩

theorem exists_encodeFrame_eq (codec : FrameCodec) (h : PacketHeader) (body : Bytes) :
    ∃ rest, codec.encodeFrame h body = codec.routeFront h ++ rest := by
  cases codec with
  | v1Fixed =>
      rw [encodeFrame, encodeHeader_v1Fixed]
      exact ⟨_, rfl⟩
  | v2Tlv =>
      obtain ⟨later, isBody⟩ := headerBody_eq h
      refine ⟨V2Tlv.spell later ++ body, ?_⟩
      rw [encodeFrame, encodeHeader_v2Tlv, V2Tlv.header, routeFront, V2Tlv.spell_headerEntries]
      nth_rewrite 2 [isBody]
      simp only [List.append_assoc]

theorem header_len_le_encodeFrame (codec : FrameCodec) (h : PacketHeader) {body : Bytes}
    (long : TAG_LEN ≤ body.length) : HEADER_LEN ≤ (codec.encodeFrame h body).length := by
  rw [encodeFrame, List.length_append]
  cases codec with
  | v1Fixed =>
      rw [encodeHeader_v1Fixed, PacketHeader.toBytes_length]
      omega
  | v2Tlv =>
      obtain ⟨later, isBody⟩ := headerBody_eq h
      have front :
        (V2Tlv.spell [V2Tlv.entry h .version, V2Tlv.entry h .type, V2Tlv.entry h .session]).length =
        12 := by
        simp [V2Tlv.Tlv.bytes, V2Tlv.entry, V2Tlv.Tag.field]
      rw [encodeHeader_v2Tlv, V2Tlv.header_length, V2Tlv.spell_headerEntries, isBody,
        List.length_append, front]
      simp only [HEADER_LEN, TAG_LEN, V2_TLV_PREAMBLE] at long ⊢
      omega

theorem looksLikeFrame_routeFront (codec : FrameCodec) {h : PacketHeader}
    (version : h.version = PROTOCOL_VERSION) (rest : Bytes) (other : FrameCodec) :
    other.looksLikeFrame (codec.routeFront h ++ rest) = true ↔ other = codec := by
  have claimed : codec.looksLikeFrame (codec.routeFront h ++ rest) = true := by
    cases codec with
    | v1Fixed =>
        have first : byteAt (v1Fixed.routeFront h ++ rest) 0 = PROTOCOL_VERSION := version
        have second : byteAt (v1Fixed.routeFront h ++ rest) 1 = h.packetType.toByte := rfl
        have long : V1_ROUTE_PREFIX_LEN ≤ (v1Fixed.routeFront h ++ rest).length := by
          simp [routeFront, V1_ROUTE_PREFIX_LEN]
        simp only [looksLikeFrame, V1Fixed.looksLikeFrame, first, second, decide_eq_true long,
          PacketType.fromByte_toByte, beq_self_eq_true, Option.isSome_some, Bool.and_self]
    | v2Tlv =>
        have magic : byteAt (v2Tlv.routeFront h ++ rest) 0 = V2_TLV_MAGIC := rfl
        have long : V2_TLV_PREAMBLE ≤ (v2Tlv.routeFront h ++ rest).length := by
          simp [routeFront, V2_TLV_PREAMBLE]
        simp only [looksLikeFrame, V2Tlv.looksLikeFrame, magic, decide_eq_true long,
          beq_self_eq_true, Bool.and_self]
  exact ⟨looksLikeFrame_unique claimed, fun same => same ▸ claimed⟩

theorem entries_routeFront (h : PacketHeader) (rest : Bytes) :
    ∃ later, V2Tlv.entries (v2Tlv.routeFront h ++ rest) =
      V2Tlv.spell [V2Tlv.entry h .version, V2Tlv.entry h .type, V2Tlv.entry h .session] ++
      later := by
  have size : (V2Tlv.headerBody h).length < 65536 :=
    Nat.lt_of_le_of_lt (V2Tlv.headerBody_length_le h) (by decide)
  have announced : V2Tlv.bodyLen (v2Tlv.routeFront h ++ rest) = (V2Tlv.headerBody h).length :=
    be16Value_be16 size
  have preamble : (v2Tlv.routeFront h ++ rest).drop V2_TLV_PREAMBLE =
      V2Tlv.spell [V2Tlv.entry h .version, V2Tlv.entry h .type, V2Tlv.entry h .session] ++ rest :=
      rfl
  obtain ⟨later, isBody⟩ := headerBody_eq h
  rw [V2Tlv.entries, announced, slice, preamble, Nat.add_sub_cancel_left, List.take_append,
    List.take_of_length_le (by rw [isBody, List.length_append]; omega)]
  exact ⟨_, rfl⟩

theorem peekAnySessionId_routeFront (codec : FrameCodec) {h : PacketHeader}
    (version : h.version = PROTOCOL_VERSION) {rest : Bytes}
    (long : (codec.encodeHeader h).length ≤ (codec.routeFront h ++ rest).length) :
    peekAnySessionId (codec.routeFront h ++ rest) = some h.sessionId := by
  have looks := looksLikeFrame_routeFront codec version rest
  cases codec with
  | v1Fixed =>
      have claimed : V1Fixed.looksLikeFrame (v1Fixed.routeFront h ++ rest) = true :=
        (looks .v1Fixed).mpr rfl
      have routed : slice (v1Fixed.routeFront h ++ rest) 2 6 = u32Bytes h.sessionId := rfl
      simp only [peekAnySessionId, ALL_CODECS, List.findSome?_cons, peekSessionId,
        V1Fixed.peekSessionId, claimed, if_true, routed, u32Value_u32Bytes]
  | v2Tlv =>
      have claimed : V2Tlv.looksLikeFrame (v2Tlv.routeFront h ++ rest) = true :=
        (looks .v2Tlv).mpr rfl
      have foreign : ¬ V1Fixed.looksLikeFrame (v2Tlv.routeFront h ++ rest) = true := fun also =>
        absurd ((looks .v1Fixed).mp also) (by decide)
      have size : (V2Tlv.headerBody h).length < 65536 :=
        Nat.lt_of_le_of_lt (V2Tlv.headerBody_length_le h) (by decide)
      have complete : ¬ (v2Tlv.routeFront h ++ rest).length <
          V2_TLV_PREAMBLE + V2Tlv.bodyLen (v2Tlv.routeFront h ++ rest) := by
        have announced : V2Tlv.bodyLen (v2Tlv.routeFront h ++ rest) = (V2Tlv.headerBody h).length :=
          be16Value_be16 size
        rw [encodeHeader_v2Tlv, V2Tlv.header_length, V2Tlv.spell_headerEntries] at long
        rw [announced]
        omega
      have peeked : V2Tlv.peekTlvs (V2Tlv.entries (v2Tlv.routeFront h ++ rest)) =
        some h.sessionId := by
        obtain ⟨later, entries⟩ := entries_routeFront h rest
        simp only [entries, V2Tlv.spell_cons, V2Tlv.spell_nil, List.append_assoc,
          V2Tlv.peekTlvs_bytes_append]
        simp [V2Tlv.entry, V2Tlv.Tag.toByte, V2Tlv.Tag.field]
      simp only [peekAnySessionId, ALL_CODECS, List.findSome?_cons, peekSessionId,
        V1Fixed.peekSessionId, if_neg foreign, V2Tlv.peekSessionId, claimed, Bool.not_true,
        Bool.false_eq_true, if_false, if_neg complete, peeked]

theorem readHeader_encodeFrame_unflagged (codec : FrameCodec) {h : PacketHeader}
    (version : h.version = PROTOCOL_VERSION) (body : Bytes) :
    codec.readHeader (codec.encodeFrame h body) = .ok { h with flags := .NONE } := by
  cases codec with
  | v1Fixed =>
      have current : PacketHeader.Current { h with flags := .NONE } := ⟨version, rfl⟩
      refine (readHeader_ok_iff_respells .v1Fixed current).mpr ⟨?_, ?_⟩
      · simp [encodeFrame, encodeHeader_v1Fixed]
      · rw [encodeFrame, encodeHeader_v1Fixed]
        rfl
  | v2Tlv =>
      rw [encodeFrame, encodeHeader_v2Tlv]
      exact (V2Tlv.readHeader_header_ok_iff (V2Tlv.spell_headerEntries_lt h) body).mpr
        (V2Tlv.spells_headerEntries_unflagged h)

end FrameCodec

/-! ## The two keystreams -/

namespace Server

variable {σ : Type}

theorem dewhiten_length (frame keystream : Bytes) :
    (dewhiten frame keystream).length = frame.length := by
  simp only [dewhiten, List.length_append, List.length_zipWith, List.length_drop]
  omega

theorem take_dewhiten_xorHeader {keystream : Keystream UInt8} {frame routing : Bytes}
    (long : HEADER_LEN ≤ frame.length) (starts : routing.take HEADER_LEN = keystream.1) :
    (dewhiten (xorHeader keystream frame) routing).take HEADER_LEN = frame.take HEADER_LEN := by
  obtain ⟨wire, isWire⟩ : ∃ wire, wire = xorHeader keystream frame := ⟨_, rfl⟩
  have size : wire.length = frame.length := isWire ▸ xorHeader_length keystream frame
  have width : (List.zipWith Byte.xor (wire.take HEADER_LEN) keystream.1).length = HEADER_LEN := by
    simp only [List.length_zipWith, List.length_take, keystream.2]
    omega
  have restored : List.zipWith Byte.xor (wire.take HEADER_LEN) keystream.1 =
    frame.take HEADER_LEN := by
    have twice := congrArg (List.take HEADER_LEN) (xorHeader_xorHeader keystream frame)
    rw [← isWire, xorHeader, if_neg (by omega), List.take_left' width] at twice
    exact twice
  rw [← isWire, ← restored, dewhiten, ← starts, List.take_append_of_le_length]
  · exact List.take_zipWith
  · have both := congrArg List.length starts
    rw [List.length_take, keystream.2] at both
    rw [List.length_zipWith]
    omega

theorem take_of_extracted (ctx : ServerCtx σ)
    (consistent : ∀ salt ikm info n m, n ≤ m → ctx.prim.hkdf salt ikm info n =
      (ctx.prim.hkdf salt ikm info m).take n) {handshakeHash : Bytes} {codec : FrameCodec}
    {routing : Bytes}
    (extracted : extractHeaderXorKeystream ctx handshakeHash codec.maxHeaderLen = some routing) :
    routing.take HEADER_LEN = (ctx.deriveKeystream handshakeHash).1 := by
  have isRouting : routing = ctx.prim.hkdf [] handshakeHash (asciiBytes HKDF_INFO)
    codec.maxHeaderLen := by
    simp only [extractHeaderXorKeystream, Option.ite_none_right_eq_some,
      Option.some.injEq] at extracted
    exact extracted.2.symm
  have atLeast : HEADER_LEN ≤ codec.maxHeaderLen := by cases codec <;> decide
  rw [isRouting, ← consistent _ _ _ _ _ atLeast]
  rfl

theorem peekAnySessionId_dewhiten {keystream : Keystream UInt8} {routing : Bytes}
    (starts : routing.take HEADER_LEN = keystream.1) (codec : FrameCodec) {h : PacketHeader}
    (version : h.version = PROTOCOL_VERSION) {ciphertext : Bytes}
    (long : TAG_LEN ≤ ciphertext.length) :
    peekAnySessionId (dewhiten (xorHeader keystream (codec.encodeFrame h ciphertext)) routing) =
      some h.sessionId := by
  have restored := take_dewhiten_xorHeader (codec.header_len_le_encodeFrame h long) starts
  have size : (dewhiten (xorHeader keystream (codec.encodeFrame h ciphertext)) routing).length =
      (codec.encodeFrame h ciphertext).length := by
    rw [dewhiten_length, xorHeader_length]
  generalize dewhiten (xorHeader keystream (codec.encodeFrame h ciphertext)) routing =
    read at restored size ⊢
  -- the front of the frame is among the restored bytes
  have front : read.take (codec.routeFront h).length = codec.routeFront h := by
    obtain ⟨rest, isFrame⟩ := codec.exists_encodeFrame_eq h ciphertext
    have inside := congrArg (List.take (codec.routeFront h).length) restored
    rw [List.take_take, List.take_take, Nat.min_eq_left (codec.routeFront_length_le h), isFrame,
      List.take_left] at inside
    exact inside
  have split : read = codec.routeFront h ++ read.drop (codec.routeFront h).length := by
    have whole := (List.take_append_drop (codec.routeFront h).length read).symm
    rw [front] at whole
    exact whole
  rw [split]
  apply codec.peekAnySessionId_routeFront version
  rw [← split, size, FrameCodec.encodeFrame, List.length_append]
  omega

/-- Let the longer output of the key derivation start with the shorter one. A frame that
    the whitening layer of a session covered is routed, with the keystream that the
    dispatcher keeps for the session, to the session that the tunnel reads in it. -/
theorem whitened_frame_routed (ctx : ServerCtx σ)
    (consistent : ∀ salt ikm info n m, n ≤ m → ctx.prim.hkdf salt ikm info n =
      (ctx.prim.hkdf salt ikm info m).take n) (handshakeHash : Bytes) (codec : FrameCodec)
    {h : PacketHeader} (version : h.version = PROTOCOL_VERSION) {ciphertext : Bytes}
    (long : TAG_LEN ≤ ciphertext.length) {routing : Bytes}
    (extracted : extractHeaderXorKeystream ctx handshakeHash codec.maxHeaderLen = some routing) :
    let layer := (ObfuscationLayer.headerXor none).init ctx.deriveKeystream handshakeHash
    let wire := layer.apply (codec.encodeFrame h ciphertext)
    peekAnySessionId (dewhiten wire routing) = some h.sessionId ∧
      ∃ frame hdr, layer.reverse wire = .ok frame ∧ codec.readHeader frame = .ok hdr ∧
        hdr.sessionId = h.sessionId := by
  intro layer wire
  have isWire : wire = xorHeader (ctx.deriveKeystream handshakeHash)
    (codec.encodeFrame h ciphertext) := rfl
  constructor
  · rw [isWire]
    exact peekAnySessionId_dewhiten (take_of_extracted ctx consistent extracted) codec version long
  · refine ⟨codec.encodeFrame h ciphertext, _, ?_,
      codec.readHeader_encodeFrame_unflagged version ciphertext, rfl⟩
    exact congrArg Except.ok (xorHeader_xorHeader (ctx.deriveKeystream handshakeHash) _)

/-- The key derivation that hides nothing is a prefix of its longer outputs. -/
theorem transparent_consistent (salt ikm info : Bytes) (n m : Nat) (shorter : n ≤ m) :
    NoisePrimitives.transparent.hkdf salt ikm info n =
    (NoisePrimitives.transparent.hkdf salt ikm info m).take n := by
  change (ikm ++ List.replicate n 0).take n = ((ikm ++ List.replicate m 0).take m).take n
  rw [List.take_take, Nat.min_eq_left shorter, List.take_append, List.take_append,
    List.take_replicate, List.take_replicate]
  congr 2
  omega

/-- A session of the TLV layout on a server whose stack has the whitening layer. -/
theorem whitened_ping_routed :
    let ctx := { ServerCtx.small .udp 0 with obfStack := [.headerXor none] }
    let hash := List.replicate 32 5
    let layer := (ObfuscationLayer.headerXor none).init ctx.deriveKeystream hash
    ∃ routing, extractHeaderXorKeystream ctx hash FrameCodec.v2Tlv.maxHeaderLen = some routing ∧
      peekAnySessionId (dewhiten
        (layer.apply (FrameCodec.v2Tlv.encodeFrame (.new .ping 7 3) (List.replicate TAG_LEN 0)))
          routing) = some 7 := by
  intro ctx hash layer
  have extracted : extractHeaderXorKeystream ctx hash FrameCodec.v2Tlv.maxHeaderLen =
      some (ctx.prim.hkdf [] hash (asciiBytes HKDF_INFO) FrameCodec.v2Tlv.maxHeaderLen) := rfl
  exact ⟨_, extracted,
    (whitened_frame_routed ctx transparent_consistent hash .v2Tlv rfl (by simp) extracted).1⟩

end Server

end Rustnies
