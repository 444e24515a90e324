import Rustnies.Protocol.FrameLaws

/-! # Headers that are read, and the grammar they should be in

The documentation of the v2-tlv layout gives each field a width, and a frame a packet
type and a session id. The reader is more lenient: it takes the first byte of a longer
value, any version, and a header without a session id. Where the session id stands more
than once it keeps the last one, and the routing peek stops at the first.
-/

namespace Rustnies

namespace V2Tlv

/-! ## Entries of one tag -/

/-- An entry with a packet type. -/
def typeEntry (b : UInt8) : Tlv := ⟨0x02, [b], by simp⟩

/-- An entry with a session id. -/
def sessionEntry (sid : SessionId) : Tlv := ⟨0x03, u32Bytes sid, by simp⟩

/-- The value of the first entry that carries a tag. -/
def firstValue (tag : Tag) : List Tlv → Option Bytes
  | [] => none
  | e :: es => if Tag.ofByte e.tag = some tag then some e.value else firstValue tag es

theorem exists_of_firstValue {tag : Tag} {es : List Tlv} {value : Bytes}
    (first : firstValue tag es = some value) :
    ∃ e ∈ es, Tag.ofByte e.tag = some tag ∧ e.value = value := by
  induction es with
  | nil => cases first
  | cons e es ih =>
      simp only [firstValue] at first
      split at first
      · rename_i carries
        cases first
        exact ⟨e, List.mem_cons_self, carries, rfl⟩
      · obtain ⟨e', inside, found⟩ := ih first
        exact ⟨e', List.mem_cons_of_mem _ inside, found⟩

theorem lastValue_eq_none_iff {tag : Tag} {es : List Tlv} :
    lastValue tag es = none ↔ ∀ e ∈ es, Tag.ofByte e.tag ≠ some tag := by
  induction es with
  | nil => simp [lastValue]
  | cons e es ih =>
      simp only [lastValue, List.forall_mem_cons, ← ih, Option.or_eq_none_iff]
      split <;> simp_all

/-- The routing peek reads the first session entry. -/
theorem peekTlvs_spell {es : List Tlv}
    (accepts : ∀ e ∈ es, ∀ tag, Tag.ofByte e.tag = some tag → tag.Accepts e.value) :
    peekTlvs (spell es) = (firstValue .session es).map u32Value := by
  induction es with
  | nil => simp [peekTlvs, firstValue]
  | cons e es ih =>
      rw [List.forall_mem_cons] at accepts
      rw [spell_cons, peekTlvs_bytes_append, firstValue, ih accepts.2]
      by_cases carries : Tag.ofByte e.tag = some .session
      · have width : e.value.length = 4 := accepts.1 .session carries
        rw [if_pos carries, if_pos ⟨(Tag.toByte_of_ofByte carries).symm, width⟩]
        rfl
      · have other : ¬ (e.tag = Tag.session.toByte ∧ e.value.length = 4) := by
          rintro ⟨isSession, -⟩
          exact carries (isSession ▸ Tag.ofByte_toByte .session)
        rw [if_neg carries, if_neg other]

/-! ## One spelling -/

theorem Tlv.bytes_append_injective {e e' : Tlv} {rest rest' : Bytes}
    (same : e.bytes ++ rest = e'.bytes ++ rest') :
    e = e' ∧ rest = rest' := by
  simp only [Tlv.bytes, List.cons_append, List.cons.injEq] at same
  obtain ⟨tag, len, values⟩ := same
  have len : e.value.length = e'.value.length := by
    rw [← e.length_byte, ← e'.length_byte, len]
  obtain ⟨value, rest⟩ := List.append_inj values len
  cases e
  cases e'
  cases tag
  cases value
  exact ⟨rfl, rest⟩

theorem spell_injective {es es' : List Tlv} (same : spell es = spell es') : es = es' := by
  induction es generalizing es' with
  | nil =>
      cases es' with
      | nil => rfl
      | cons e es' => simp [Tlv.bytes] at same
  | cons e es ih =>
      cases es' with
      | nil => simp [Tlv.bytes] at same
      | cons e' es' =>
          rw [spell_cons, spell_cons] at same
          obtain ⟨rfl, later⟩ := Tlv.bytes_append_injective same
          rw [ih later]

theorem header_append_injective {es es' : List Tlv} {rest rest' : Bytes}
    (fits : (spell es).length < 65536) (fits' : (spell es').length < 65536)
    (same : header es ++ rest = header es' ++ rest') : es = es' := by
  apply spell_injective
  rw [← entries_header fits rest, same, entries_header fits' rest']

/-! ## Unknown entries -/

/-- Whether this build knows the tag of an entry. -/
def Tlv.known (e : Tlv) : Bool := (Tag.ofByte e.tag).isSome

theorem lastValue_filter_known (tag : Tag) (es : List Tlv) :
    lastValue tag (es.filter Tlv.known) = lastValue tag es := by
  induction es with
  | nil => rfl
  | cons e es ih =>
      cases known : e.known with
      | true => simp only [List.filter_cons, known, if_true, lastValue, ih]
      | false =>
          have unknown : Tag.ofByte e.tag = none := by simpa [Tlv.known] using known
          simp [known, lastValue, ih, unknown]

theorem spells_filter_known_iff {es : List Tlv} {h : PacketHeader} :
    Spells (es.filter Tlv.known) h ↔ Spells es h := by
  simp only [spells_iff, lastValue_filter_known, List.mem_filter, and_imp]
  refine and_congr_left fun _ =>
    ⟨fun accepts e inside tag carries => ?_, fun accepts e inside _ => accepts e inside⟩
  exact accepts e inside (by simp [Tlv.known, carries]) tag carries

theorem known_of_mem_headerEntries {h : PacketHeader} {e : Tlv} (inside : e ∈ headerEntries h) :
    e.known = true := by
  obtain ⟨tag, -, rfl⟩ := List.mem_map.mp inside
  simp [Tlv.known, entry]

theorem flags_of_headerEntries_eq {h : PacketHeader}
    (same : headerEntries h = headerEntries { h with flags := .NONE }) : h.flags = .NONE := by
  by_contra flagged
  have bits : h.flags.isEmpty = false := by
    simp only [HeaderFlags.isEmpty, beq_eq_false_iff_ne, ne_eq]
    intro zero
    exact flagged (congrArg HeaderFlags.mk zero)
  have inside : entry h .flags ∈ headerEntries h :=
    List.mem_map.mpr
      ⟨.flags, List.mem_filter.mpr ⟨Tag.mem_all _, by simp [written, bits]⟩, rfl⟩
  rw [same] at inside
  obtain ⟨tag, isWritten, isEntry⟩ := List.mem_map.mp inside
  have isFlags : tag = .flags := by
    have tags := congrArg (fun e : Tlv => Tag.ofByte e.tag) isEntry
    simpa [entry] using tags
  subst isFlags
  simp [written, HeaderFlags.isEmpty, HeaderFlags.NONE] at isWritten

end V2Tlv

/-! ## Routing -/

/-- The session id stands once in the header, or each time the same: always in the fixed
    layout; in the TLV layout there is a session entry, and the first and the last agree. -/
def FrameCodec.NamesOneSession : FrameCodec → Bytes → Prop
  | .v1Fixed, _ => True
  | .v2Tlv, buf => ∃ es rest value,
      (V2Tlv.spell es).length < 65536 ∧ buf = V2Tlv.header es ++ rest ∧
      V2Tlv.firstValue .session es = some value ∧ V2Tlv.lastValue .session es = some value

theorem V1Fixed.peekSessionId_of_readHeader {buf : Bytes} {h : PacketHeader}
    (read : FrameCodec.v1Fixed.readHeader buf = .ok h) :
    V1Fixed.peekSessionId buf = some h.sessionId := by
  have claimed : V1Fixed.looksLikeFrame buf = true :=
    FrameCodec.looksLikeFrame_of_readHeader .v1Fixed read
  rw [V1Fixed.peekSessionId, if_pos claimed]
  simp only [FrameCodec.readHeader, V1Fixed.readHeader, PacketHeader.readFrom] at read
  split at read
  · cases read
  · split at read
    · cases read
    · cases type : PacketType.fromByte (byteAt buf 1) with
      | none => simp [type, Except.mapError] at read
      | some packetType =>
          rw [type] at read
          cases read
          rfl

theorem V2Tlv.peekSessionId_header {es : List Tlv} {h : PacketHeader}
    (fits : (spell es).length < 65536) (rest : Bytes) (spells : Spells es h) :
    peekSessionId (header es ++ rest) = (firstValue .session es).map u32Value := by
  have read := (readHeader_header_ok_iff fits rest).mpr spells
  have claimed : looksLikeFrame (header es ++ rest) = true :=
    FrameCodec.looksLikeFrame_of_readHeader .v2Tlv read
  have complete : ¬ (header es ++ rest).length < V2_TLV_PREAMBLE +
    bodyLen (header es ++ rest) := by
    rw [bodyLen_header fits, List.length_append, header_length]
    omega
  rw [peekSessionId, claimed, Bool.not_true, if_neg Bool.false_ne_true, if_neg complete,
    entries_header fits, peekTlvs_spell spells.accepts]

/-- The routing peek and the full parse attribute a frame to the same session exactly
    when its header names one session. -/
theorem peekSessionId_agrees_iff (codec : FrameCodec) {buf : Bytes} {h : PacketHeader}
    (read : codec.readHeader buf = .ok h) :
    codec.peekSessionId buf = some h.sessionId ↔ codec.NamesOneSession buf := by
  cases codec with
  | v1Fixed => exact iff_of_true (V1Fixed.peekSessionId_of_readHeader read) trivial
  | v2Tlv =>
      obtain ⟨es, rest, fits, rfl, spells⟩ := V2Tlv.readHeader_ok_iff.mp read
      have peeked := V2Tlv.peekSessionId_header fits rest spells
      have last := spells.last .session
      simp only [FrameCodec.peekSessionId, FrameCodec.NamesOneSession, peeked]
      constructor
      · intro agrees
        obtain ⟨value, first, isId⟩ := Option.map_eq_some_iff.mp agrees
        obtain ⟨e, inside, carries, rfl⟩ := V2Tlv.exists_of_firstValue first
        have width : e.value.length = 4 := spells.accepts e inside .session carries
        refine ⟨es, rest, e.value, fits, rfl, first, ?_⟩
        cases present : V2Tlv.lastValue .session es with
        | none => exact absurd carries (V2Tlv.lastValue_eq_none_iff.mp present e inside)
        | some value =>
            rw [present] at last
            have isLast : value = u32Bytes h.sessionId := Option.some.inj last
            rw [isLast, ← isId, u32Bytes_u32Value width]
      · rintro ⟨es', rest', value, fits', same, first, present⟩
        rw [← V2Tlv.header_append_injective fits fits' same] at first present
        rw [present] at last
        have isLast : value = u32Bytes h.sessionId := Option.some.inj last
        rw [first, Option.map_some, isLast, u32Value_u32Bytes]

/-- A ping names its session once. -/
theorem ping_names_one_session :
    FrameCodec.v2Tlv.NamesOneSession (FrameCodec.v2Tlv.encodeFrame (.new .ping 7 3) [0xAA]) ∧
      FrameCodec.v2Tlv.peekSessionId (FrameCodec.v2Tlv.encodeFrame (.new .ping 7 3) [0xAA]) =
      some 7 := by
  have names : FrameCodec.v2Tlv.NamesOneSession
    (FrameCodec.v2Tlv.encodeFrame (.new .ping 7 3) [0xAA]) := by
    refine ⟨V2Tlv.headerEntries (.new .ping 7 3), [0xAA], u32Bytes 7,
      by decide, ?_, by decide, by decide⟩
    rw [FrameCodec.encodeFrame, FrameCodec.encodeHeader_v2Tlv]
  have read := FrameCodec.readHeader_encodeFrame .v2Tlv (PacketHeader.new_current .ping 7 3) [0xAA]
  exact ⟨names, (peekSessionId_agrees_iff .v2Tlv read).mpr names⟩

theorem spells_two_sessions :
    V2Tlv.Spells [V2Tlv.typeEntry 9, V2Tlv.sessionEntry 1, V2Tlv.sessionEntry 2]
    (.new .keepalive 2 0) := by
  constructor
  · simp [V2Tlv.typeEntry, V2Tlv.sessionEntry, V2Tlv.Tag.ofByte, V2Tlv.Tag.Accepts,
      PacketType.fromByte]
  · intro tag
    cases tag <;> rfl

/-- The dispatcher takes the frame to one session, and the tunnel reads another. -/
theorem two_sessions_disagree :
    let buf : Bytes := [0x52, 0, 15, 2, 1, 9, 3, 4, 1, 0, 0, 0, 3, 4, 2, 0, 0, 0]
    FrameCodec.v2Tlv.readHeader buf = .ok (.new .keepalive 2 0) ∧
      FrameCodec.v2Tlv.peekSessionId buf = some 1 := by
  intro buf
  let es := [V2Tlv.typeEntry 9, V2Tlv.sessionEntry 1, V2Tlv.sessionEntry 2]
  have isHeader : buf = V2Tlv.header es ++ [] := by decide
  have fits : (V2Tlv.spell es).length < 65536 := by decide
  rw [isHeader]
  exact ⟨(V2Tlv.readHeader_header_ok_iff fits []).mpr spells_two_sessions,
    V2Tlv.peekSessionId_header fits [] spells_two_sessions⟩

/-! ## The documented grammar -/

namespace V2Tlv

/-- The natural width of a field. -/
def Tag.width : Tag → Nat
  | .session | .seq | .ackSeq | .ackBitmap => 4
  | .fecGroup => 2
  | .version | .type | .fecIndex | .fecK | .fecM | .flags => 1

/-- The entries that the documentation allows; a tag that this build does not know may
    have any value. -/
structure Documented (es : List Tlv) : Prop where
  widths : ∀ e ∈ es, ∀ tag, Tag.ofByte e.tag = some tag → e.value.length = tag.width
  versions : ∀ e ∈ es, Tag.ofByte e.tag = some .version → e.value.head? =
    some PROTOCOL_VERSION
  types : ∀ e ∈ es, Tag.ofByte e.tag = some .type → ∃ b, e.value.head? = some b ∧
    (PacketType.fromByte b).isSome
  type : ∃ e ∈ es, Tag.ofByte e.tag = some .type
  session : ∃ e ∈ es, Tag.ofByte e.tag = some .session

/-- The magic byte, a length that fits the buffer, and documented entries of that length. -/
def InGrammar (buf : Bytes) : Prop :=
  ∃ es rest, (spell es).length < 65536 ∧ buf = header es ++ rest ∧ Documented es

/-- Entries that the reader can work with: every known tag has bytes enough, and there
    is a packet type. -/
structure Legible (es : List Tlv) : Prop where
  accepts : ∀ e ∈ es, ∀ tag, Tag.ofByte e.tag = some tag → tag.Accepts e.value
  type : ∃ e ∈ es, Tag.ofByte e.tag = some .type

/-- What the documentation forbids and the reader does not look for. -/
inductive Overlooked (es : List Tlv) : Prop where
  /-- More than one byte in a field of one byte. -/
  | wide (e : Tlv) (inside : e ∈ es) (tag : Tag) (carries : Tag.ofByte e.tag = some tag)
      (byteField : tag.width = 1) (long : 1 < e.value.length)
  /-- Another version. -/
  | version (e : Tlv) (inside : e ∈ es) (carries : Tag.ofByte e.tag = some .version)
      (other : e.value.head? ≠ some PROTOCOL_VERSION)
  /-- No session id. -/
  | session (absent : ∀ e ∈ es, Tag.ofByte e.tag ≠ some .session)

theorem legible_iff {es : List Tlv} : Legible es ↔ ∃ h, Spells es h := by
  have present : (∃ e ∈ es, Tag.ofByte e.tag = some .type) ↔ lastValue .type es ≠ none := by
    rw [Ne, lastValue_eq_none_iff]
    simp only [not_forall, not_not, exists_prop]
  rw [exists_spells_iff, ← present]
  exact ⟨fun legible => ⟨legible.accepts, legible.type⟩, fun both => ⟨both.1, both.2⟩⟩

theorem Tag.accepts_of_width {tag : Tag} {value : Bytes} (width : value.length = tag.width)
    (types : tag = .type → ∃ b, value.head? = some b ∧ (PacketType.fromByte b).isSome) :
    tag.Accepts value := by
  cases tag with
  | session | seq | ackSeq | ackBitmap | fecGroup => exact width
  | type => exact types rfl
  | version | fecIndex | fecK | fecM | flags =>
      rintro rfl
      cases width

theorem Tag.width_of_accepts {tag : Tag} {value : Bytes} (accepted : tag.Accepts value)
    (short : tag.width = 1 → value.length ≤ 1) : value.length = tag.width := by
  cases tag with
  | session | seq | ackSeq | ackBitmap | fecGroup => exact accepted
  | type =>
      obtain ⟨b, first, -⟩ := accepted
      obtain ⟨rest, rfl⟩ := List.head?_eq_some_iff.mp first
      exact Nat.le_antisymm (short rfl) (Nat.le_add_left ..)
  | version | fecIndex | fecK | fecM | flags =>
      exact Nat.le_antisymm (short rfl) (List.length_pos_iff.mpr accepted)

/-- A documented header is legible, and a legible one is documented unless something is
    overlooked. -/
theorem documented_iff {es : List Tlv} : Documented es ↔ Legible es ∧ ¬ Overlooked es := by
  constructor
  · intro documented
    refine ⟨⟨fun e inside tag carries => ?_, documented.type⟩, fun overlooked => ?_⟩
    · exact Tag.accepts_of_width (documented.widths e inside tag carries) fun isType =>
        documented.types e inside (isType ▸ carries)
    · cases overlooked with
      | wide e inside tag carries byteField long =>
          have width := documented.widths e inside tag carries
          omega
      | version e inside carries other => exact other (documented.versions e inside carries)
      | session absent =>
          obtain ⟨e, inside, carries⟩ := documented.session
          exact absent e inside carries
  · rintro ⟨legible, nothing⟩
    refine ⟨fun e inside tag carries => ?_, fun e inside carries => ?_, fun e inside carries =>
      ?_, legible.type, ?_⟩
    · refine Tag.width_of_accepts (legible.accepts e inside tag carries) fun byteField => ?_
      exact Nat.not_lt.mp fun long => nothing (.wide e inside tag carries byteField long)
    · by_contra other
      exact nothing (.version e inside carries other)
    · exact legible.accepts e inside .type carries
    · by_contra absent
      refine nothing (.session fun e inside carries => ?_)
      exact absent ⟨e, inside, carries⟩

theorem inGrammar_header_iff {es : List Tlv} (fits : (spell es).length < 65536) (rest : Bytes) :
    InGrammar (header es ++ rest) ↔ Documented es := by
  constructor
  · rintro ⟨es', rest', fits', same, documented⟩
    rw [header_append_injective fits fits' same]
    exact documented
  · intro documented
    exact ⟨es, rest, fits, rfl, documented⟩

theorem readHeader_accepts_iff {buf : Bytes} :
    (∃ h, readHeader buf = .ok h) ↔
      ∃ es rest, (spell es).length < 65536 ∧ buf = header es ++ rest ∧ Legible es := by
  constructor
  · rintro ⟨h, read⟩
    obtain ⟨es, rest, fits, same, spells⟩ := readHeader_ok_iff.mp read
    exact ⟨es, rest, fits, same, legible_iff.mpr ⟨h, spells⟩⟩
  · rintro ⟨es, rest, fits, rfl, legible⟩
    obtain ⟨h, spells⟩ := legible_iff.mp legible
    exact ⟨h, (readHeader_header_ok_iff fits rest).mpr spells⟩

/-- The reader and the documented grammar agree on a byte string exactly when it is no
    legible header with something the reader overlooks. -/
theorem readHeader_grammar_iff (buf : Bytes) :
    ((∃ h, readHeader buf = .ok h) ↔ InGrammar buf) ↔
      ¬ ∃ es rest, (spell es).length < 65536 ∧ buf = header es ++ rest ∧ Legible es ∧
      Overlooked es := by
  constructor
  · rintro agree ⟨es, rest, fits, rfl, legible, overlooked⟩
    have accepted := readHeader_accepts_iff.mpr ⟨es, rest, fits, rfl, legible⟩
    exact (documented_iff.mp ((inGrammar_header_iff fits rest).mp (agree.mp accepted))).2 overlooked
  · intro nothing
    constructor
    · intro accepted
      obtain ⟨es, rest, fits, same, legible⟩ := readHeader_accepts_iff.mp accepted
      refine ⟨es, rest, fits, same, documented_iff.mpr ⟨legible, fun overlooked => ?_⟩⟩
      exact nothing ⟨es, rest, fits, same, legible, overlooked⟩
    · rintro ⟨es, rest, fits, same, documented⟩
      exact readHeader_accepts_iff.mpr ⟨es, rest, fits, same, (documented_iff.mp documented).1⟩

theorem read_outside_grammar {es : List Tlv} {buf : Bytes} (isHeader : buf = header es)
    (fits : (spell es).length < 65536) (legible : Legible es) (overlooked : Overlooked es) :
    (∃ h, readHeader buf = .ok h) ∧ ¬ InGrammar buf := by
  rw [isHeader, ← List.append_nil (header es)]
  refine ⟨readHeader_accepts_iff.mpr ⟨es, [], fits, rfl, legible⟩, fun inside => ?_⟩
  exact (documented_iff.mp ((inGrammar_header_iff fits []).mp inside)).2 overlooked

/-- A keepalive without a session id, one of another version, and one with a packet type
    of two bytes: each is read, and none is in the grammar. -/
theorem overlooked_headers_read :
    let unsessioned : Bytes := [0x52, 0, 3, 2, 1, 9]
    let reversioned : Bytes := [0x52, 0, 12, 1, 1, 2, 2, 1, 9, 3, 4, 7, 0, 0, 0]
    let widened : Bytes := [0x52, 0, 10, 2, 2, 9, 0, 3, 4, 7, 0, 0, 0]
    ((∃ h, readHeader unsessioned = .ok h) ∧ ¬ InGrammar unsessioned) ∧
      ((∃ h, readHeader reversioned = .ok h) ∧ ¬ InGrammar reversioned) ∧
      (∃ h, readHeader widened = .ok h) ∧ ¬ InGrammar widened := by
  have noSession : Legible [typeEntry 9] ∧ Overlooked [typeEntry 9] := by
    refine ⟨⟨?_, ?_⟩, .session ?_⟩
    all_goals simp [typeEntry, Tag.ofByte, Tag.Accepts, PacketType.fromByte]
  have otherVersion : Legible [⟨0x01, [2], by simp⟩, typeEntry 9, sessionEntry 7] ∧
      Overlooked [⟨0x01, [2], by simp⟩, typeEntry 9, sessionEntry 7] := by
    refine ⟨⟨?_, ?_⟩, .version _ List.mem_cons_self rfl (by decide)⟩
    all_goals simp [typeEntry, sessionEntry, Tag.ofByte, Tag.Accepts, PacketType.fromByte]
  have wideType : Legible [⟨0x02, [9, 0], by simp⟩, sessionEntry 7] ∧
      Overlooked [⟨0x02, [9, 0], by simp⟩, sessionEntry 7] := by
    refine ⟨⟨?_, ?_⟩, .wide _ List.mem_cons_self .type rfl rfl (by decide)⟩
    all_goals simp [sessionEntry, Tag.ofByte, Tag.Accepts, PacketType.fromByte]
  refine ⟨?_, ?_, ?_⟩
  · exact read_outside_grammar (by decide) (by decide) noSession.1 noSession.2
  · exact read_outside_grammar (by decide) (by decide) otherVersion.1 otherVersion.2
  · exact read_outside_grammar (by decide) (by decide) wideType.1 wideType.2

end V2Tlv

end Rustnies
