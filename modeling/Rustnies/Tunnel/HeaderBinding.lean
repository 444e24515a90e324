import Rustnies.Protocol.FrameGrammar
import Rustnies.Tunnel.Pairing

/-! # What the tag binds of a header

The receiver authenticates the header it decoded, encoded again, and not the bytes
that arrived. Every header field is therefore bound, and the spelling is not: a
frame opens exactly when its header bytes are some spelling of the sealed header.

An entry that this build does not know is skipped by the parse and so is missing from
what is encoded again. A sender that adds one and authenticates its own header bytes
is never understood.
-/

namespace Rustnies.Config

variable {σ : Type} (cfg : Config σ) {sid : SessionId} {h : PacketHeader}
  {body payload frame : Bytes}

/-- Let the cipher open a sealed body under the associated data it was sealed with,
    and under no other. A frame with this body is rejected exactly when its header
    bytes are not a spelling of the sealed header. -/
theorem openFrame_rejects_iff (current : h.Current)
    (opens : cfg.aead.decrypt cfg.recvKey (makeNonce sid h.seq cfg.recvDir)
      (cfg.codec.encodeHeader h) body = some payload)
    (binds : ∀ nonce aad, aad ≠ cfg.codec.encodeHeader h →
      cfg.aead.decrypt cfg.recvKey nonce aad body = none)
    (carries : cfg.bodyOf frame = body) :
    (∃ why, cfg.openFrame sid frame = .error why) ↔ ¬ cfg.codec.Respells frame h := by
  rw [← FrameCodec.readHeader_ok_iff_respells cfg.codec current]
  constructor
  · rintro ⟨why, rejected⟩ read
    rw [cfg.openFrame_of_read read, carries, opens] at rejected
    cases rejected
  · intro other
    cases opened : cfg.openFrame sid frame with
    | error why => exact ⟨why, rfl⟩
    | ok packet =>
        obtain ⟨read, decrypted⟩ := cfg.read_of_openFrame opened
        rw [carries] at decrypted
        -- the tag passed, so the decoded header encodes as the sealed one did
        have same : cfg.codec.encodeHeader packet.1 = cfg.codec.encodeHeader h := by
          by_contra differs
          rw [binds _ _ differs] at decrypted
          cases decrypted
        rw [FrameCodec.encodeHeader_injective cfg.codec current read same] at read
        exact absurd read other

/-! ## The flags byte -/

/-- A cipher that has sealed one message, and opens nothing else. -/
def onceAead (nonce aad message : Bytes) : Aead UInt8 where
  encrypt _ _ _ m := some (m ++ List.replicate TAG_LEN 0)
  decrypt _ n a sealed :=
    if n = nonce ∧ a = aad ∧ sealed = message ++ List.replicate TAG_LEN 0
      then some message else none

/-- A data header, and a receiver whose peer has sealed one packet under it. -/
def sampleHeader : PacketHeader := { PacketHeader.new .data 7 1 with fecK := 1, fecM := 2 }

def boundConfig (codec : FrameCodec) : Config Unit :=
  { Tunnel.sampleConfig .responderToInitiator .initiatorToResponder with
    codec := codec
    aead := onceAead (makeNonce 7 1 .initiatorToResponder)
      (codec.encodeHeader sampleHeader) [1, 2, 3] }

def sampleBody : Bytes := [1, 2, 3] ++ List.replicate TAG_LEN 0

theorem boundConfig_opens (codec : FrameCodec) :
    (boundConfig codec).aead.decrypt (boundConfig codec).recvKey
      (makeNonce 7 sampleHeader.seq (boundConfig codec).recvDir)
      ((boundConfig codec).codec.encodeHeader sampleHeader) sampleBody = some [1, 2, 3] :=
  if_pos ⟨rfl, rfl, rfl⟩

theorem boundConfig_binds (codec : FrameCodec) (nonce aad : Bytes)
    (differs : aad ≠ (boundConfig codec).codec.encodeHeader sampleHeader) :
    (boundConfig codec).aead.decrypt (boundConfig codec).recvKey nonce aad sampleBody = none :=
  if_neg fun same => differs same.2.1

/-- A frame with a flag bit set that the sealed header did not have: it differs from
    the sealed frame in one header byte, and opens. -/
theorem flags_byte_not_bound :
    (∀ nonce aad, aad ≠ (boundConfig .v1Fixed).codec.encodeHeader sampleHeader →
      (boundConfig .v1Fixed).aead.decrypt
      (boundConfig .v1Fixed).recvKey nonce aad sampleBody = none) ∧
    ¬ ∀ frame : Bytes, (boundConfig .v1Fixed).bodyOf frame = sampleBody →
      frame.take HEADER_LEN ≠ FrameCodec.v1Fixed.encodeHeader sampleHeader →
      ∃ why, (boundConfig .v1Fixed).openFrame 7 frame = .error why := by
  refine ⟨boundConfig_binds .v1Fixed, fun rejects => ?_⟩
  obtain ⟨why, rejected⟩ :=
    rejects (sampleHeader.toBytes.set 23 1 ++ sampleBody) (by decide) (by decide)
  have opens : (boundConfig .v1Fixed).openFrame 7 (sampleHeader.toBytes.set 23 1 ++ sampleBody) =
      .ok (sampleHeader, [1, 2, 3]) := by
    decide
  rw [opens] at rejected
  cases rejected

/-- A changed sequence number is no spelling of the header, and is caught. -/
theorem changed_seq_rejected : ∃ why,
    (boundConfig .v1Fixed).openFrame 7 (sampleHeader.toBytes.set 6 9 ++ sampleBody) =
    .error why := by
  have carries : (boundConfig .v1Fixed).bodyOf (sampleHeader.toBytes.set 6 9 ++ sampleBody) =
    sampleBody := by
    decide
  have other : ¬ FrameCodec.v1Fixed.Respells (sampleHeader.toBytes.set 6 9 ++ sampleBody)
    sampleHeader :=
    fun spelled => absurd spelled.2 (by decide)
  exact ((boundConfig .v1Fixed).openFrame_rejects_iff ⟨rfl, rfl⟩ (boundConfig_opens .v1Fixed)
    (boundConfig_binds .v1Fixed) carries).mpr other

/-! ## Entries of a newer sender -/

open V2Tlv (Tlv header headerEntries spell)

/-- The entries of a header with further entries among them, all of tags that this build
    does not know. -/
def Extends (h : PacketHeader) (es : List Tlv) : Prop := es.filter Tlv.known = headerEntries h

theorem read_extended (codec : cfg.codec = .v2Tlv) {es : List Tlv} (extended : Extends h es)
    (fits : (spell es).length < 65536) (body : Bytes) :
    cfg.codec.readHeader (header es ++ body) = .ok { h with flags := .NONE } ∧
      cfg.bodyOf (header es ++ body) = body := by
  have spells : V2Tlv.Spells es { h with flags := .NONE } := by
    rw [← V2Tlv.spells_filter_known_iff, extended]
    exact V2Tlv.spells_headerEntries_unflagged h
  refine ⟨?_, ?_⟩
  · rw [codec]
    exact (V2Tlv.readHeader_header_ok_iff fits body).mpr spells
  · have offset : cfg.codec.bodyOffset (header es ++ body) = (header es).length := by
      rw [codec]
      exact V2Tlv.bodyOffset_header fits body
    rw [bodyOf, offset, Nat.min_eq_left (by simp), List.drop_left]

theorem encodeHeader_eq_header_iff {es : List Tlv} (extended : Extends h es)
    (fits : (spell es).length < 65536) :
    FrameCodec.v2Tlv.encodeHeader { h with flags := .NONE } = header es ↔
      h.flags = .NONE ∧ ∀ e ∈ es, e.known = true := by
  rw [FrameCodec.encodeHeader_v2Tlv]
  constructor
  · intro same
    have isList : headerEntries { h with flags := .NONE } = es :=
      V2Tlv.header_append_injective (V2Tlv.spell_headerEntries_lt _) fits (congrArg (· ++ []) same)
    have known : ∀ e ∈ es, e.known = true := by
      intro e inside
      rw [← isList] at inside
      exact V2Tlv.known_of_mem_headerEntries inside
    have isOwn : es = headerEntries h := (List.filter_eq_self.mpr known).symm.trans extended
    exact ⟨V2Tlv.flags_of_headerEntries_eq (isOwn.symm.trans isList.symm), known⟩
  · rintro ⟨flags, known⟩
    rw [← flags, ← extended, List.filter_eq_self.mpr known]

theorem openFrame_unwritable (codec : cfg.codec = .v2Tlv) {es : List Tlv} (extended : Extends h es)
    (fits : (spell es).length < 65536)
    (binds : ∀ nonce aad, aad ≠ header es → cfg.aead.decrypt cfg.recvKey nonce aad body =
      none) (unwritable : ¬ (h.flags = .NONE ∧ ∀ e ∈ es, e.known = true)) :
    cfg.openFrame sid (header es ++ body) = .error .tag := by
  obtain ⟨read, carries⟩ := cfg.read_extended codec extended fits body
  rw [← encodeHeader_eq_header_iff extended fits, ← codec] at unwritable
  rw [cfg.openFrame_of_read read, carries, binds _ _ unwritable]

/-- Let the cipher open a sealed body under the associated data it was sealed with, and
    under no other. A frame whose sender added entries to the header and sealed the body
    under its own header bytes is opened exactly when no entry is unknown and no flag is
    set. -/
theorem extended_frame_opens_iff (codec : cfg.codec = .v2Tlv) {es : List Tlv}
    (extended : Extends h es) (fits : (spell es).length < 65536)
    (opens : cfg.aead.decrypt cfg.recvKey (makeNonce sid h.seq cfg.recvDir) (header es) body =
      some payload)
    (binds : ∀ nonce aad, aad ≠ header es → cfg.aead.decrypt cfg.recvKey nonce aad
      body = none) :
    (∃ hdr, cfg.openFrame sid (header es ++ body) = .ok (hdr, payload)) ↔
      h.flags = .NONE ∧ ∀ e ∈ es, e.known = true := by
  constructor
  · rintro ⟨hdr, opened⟩
    by_contra unwritable
    rw [cfg.openFrame_unwritable codec extended fits binds unwritable] at opened
    cases opened
  · intro writable
    obtain ⟨read, carries⟩ := cfg.read_extended codec extended fits body
    have same := (encodeHeader_eq_header_iff extended fits).mpr writable
    rw [← codec] at same
    rw [cfg.openFrame_of_read read, carries, same, opens]
    exact ⟨_, rfl⟩

/-- A receiver whose peer has sealed one packet under the given header bytes. -/
def receiverOf (es : List Tlv) : Config Unit :=
  { boundConfig .v2Tlv with
    aead := onceAead (makeNonce 7 1 .initiatorToResponder) (header es) [1, 2, 3] }

theorem receiverOf_opens (es : List Tlv) :
    (receiverOf es).aead.decrypt (receiverOf es).recvKey
        (makeNonce 7 sampleHeader.seq (receiverOf es).recvDir)
      (header es) sampleBody = some [1, 2, 3] :=
  if_pos ⟨rfl, rfl, rfl⟩

theorem receiverOf_binds (es : List Tlv) (nonce aad : Bytes) (differs : aad ≠ header es) :
    (receiverOf es).aead.decrypt (receiverOf es).recvKey nonce aad sampleBody = none :=
  if_neg fun same => differs same.2.1

/-- A sender of this build. -/
theorem own_frame_opens :
    let es := headerEntries sampleHeader
    ∃ hdr, (receiverOf es).openFrame 7 (header es ++ sampleBody) = .ok (hdr, [1, 2, 3]) := by
  intro es
  have known : ∀ e ∈ es, e.known = true := fun _ => V2Tlv.known_of_mem_headerEntries
  have extended : Extends sampleHeader es := List.filter_eq_self.mpr known
  exact ((receiverOf es).extended_frame_opens_iff rfl extended (V2Tlv.spell_headerEntries_lt _)
    (receiverOf_opens es) (receiverOf_binds es)).mpr ⟨rfl, known⟩

/-- A sender that adds one entry of a tag that is not assigned: the header is read, and
    the tag does not pass. -/
theorem extended_frame_rejected :
    let es := headerEntries sampleHeader ++ [⟨0x40, [1], by simp⟩]
    Extends sampleHeader es ∧
      (receiverOf es).aead.decrypt (receiverOf es).recvKey
        (makeNonce 7 sampleHeader.seq (receiverOf es).recvDir) (header es) sampleBody =
        some [1, 2, 3] ∧
      (receiverOf es).openFrame 7 (header es ++ sampleBody) = .error .tag := by
  intro es
  have extended : Extends sampleHeader es := by
    rw [Extends, List.filter_append, List.filter_eq_self.mpr fun _ =>
      V2Tlv.known_of_mem_headerEntries]
    rfl
  refine ⟨extended, receiverOf_opens es, ?_⟩
  refine (receiverOf es).openFrame_unwritable rfl extended (by decide) (receiverOf_binds es)
    fun writable => ?_
  exact absurd (writable.2 ⟨0x40, [1], by simp⟩ (by simp [es])) (by decide)

end Rustnies.Config
