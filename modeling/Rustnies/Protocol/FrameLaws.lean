import Rustnies.Protocol.Frame

/-! # What the frame codecs read and write

A v2-tlv header is a spelling of a list of entries. `readHeader_iff` says which
byte strings are read as which header: every entry with a known tag has an
acceptable value, and the last entry of each tag gives the field. From it follow
the round trip of both codecs and the exact set of byte strings that are read as
one given header.
-/

namespace Rustnies

namespace V2Tlv

/-- One entry of a header; the length is one byte. -/
structure Tlv where
  tag : UInt8
  value : Bytes
  short : value.length < 256

def Tlv.bytes (e : Tlv) : Bytes := e.tag :: UInt8.ofNat e.value.length :: e.value

def spell (es : List Tlv) : Bytes := es.flatMap Tlv.bytes

@[simp]
theorem spell_nil : spell [] = [] := rfl

@[simp]
theorem spell_cons (e : Tlv) (es : List Tlv) : spell (e :: es) = e.bytes ++ spell es := by
  simp only [spell, List.flatMap_cons]

@[simp]
theorem spell_append (es es' : List Tlv) : spell (es ++ es') = spell es ++ spell es' := by
  simp only [spell, List.flatMap_append]

theorem Tlv.length_byte (e : Tlv) : (UInt8.ofNat e.value.length).toNat = e.value.length := by
  have short := e.short
  simp only [UInt8.toNat_ofNat']
  omega

/-- Setting one field after another. -/
def Fields.setAll (f : Fields) : List Tlv → Except FrameError Fields
  | [] => .ok f
  | e :: es => (f.set e.tag e.value).bind fun f' => f'.setAll es

theorem readTlvs_spell (f : Fields) (es : List Tlv) : readTlvs f (spell es) = f.setAll es := by
  induction es generalizing f with
  | nil => simp [readTlvs, Fields.setAll]
  | cons e es ih =>
      have len := e.length_byte
      rw [spell_cons, Tlv.bytes, List.cons_append, List.cons_append, readTlvs, len,
        if_neg (by simp), List.take_left, List.drop_left, Fields.setAll]
      simp only [ih]

theorem spell_of_readTlvs {f f' : Fields} {body : Bytes} (accepted : readTlvs f body = .ok f') :
    ∃ es, body = spell es := by
  fun_induction readTlvs f body with
  | case1 f => exact ⟨[], rfl⟩
  | case2 f b => cases accepted
  | case3 f tag len rest overrun => cases accepted
  | case4 f tag len rest inside ih =>
      cases first : f.set tag (rest.take len.toNat) with
      | error e =>
          rw [first] at accepted
          cases accepted
      | ok mid =>
          rw [first] at accepted
          obtain ⟨es, later⟩ := ih mid accepted
          have width : (rest.take len.toNat).length = len.toNat := by
            rw [List.length_take]
            omega
          refine ⟨⟨tag, rest.take len.toNat, by rw [width]; exact len.toNat_lt⟩ :: es, ?_⟩
          simp only [spell_cons, Tlv.bytes, width, UInt8.ofNat_toNat, ← later, List.cons_append,
            List.take_append_drop]

/-! ## The value of each tag -/

/-- The values a known tag takes. -/
def Tag.Accepts : Tag → Bytes → Prop
  | .session, v | .seq, v | .ackSeq, v | .ackBitmap, v => v.length = 4
  | .fecGroup, v => v.length = 2
  | .type, v => ∃ b, v.head? = some b ∧ (PacketType.fromByte b).isSome
  | .version, v | .fecIndex, v | .fecK, v | .fecM, v | .flags, v => v ≠ []

/-- What an accepted value leaves in the field: one byte for a byte field, however
    long the value is, and nothing of the flags. -/
def Tag.reading : Tag → Bytes → Bytes
  | .session, v | .seq, v | .ackSeq, v | .ackBitmap, v | .fecGroup, v => v
  | .type, v | .version, v | .fecIndex, v | .fecK, v | .fecM, v => v.take 1
  | .flags, _ => [0]

/-- The field of a header that a tag carries. -/
def Tag.field (h : PacketHeader) : Tag → Bytes
  | .version => [h.version]
  | .type => [h.packetType.toByte]
  | .session => u32Bytes h.sessionId
  | .seq => u32Bytes h.seq
  | .ackSeq => u32Bytes h.ackSeq
  | .ackBitmap => u32Bytes h.ackBitmap
  | .fecGroup => u16Bytes h.fecGroup
  | .fecIndex => [h.fecIndex]
  | .fecK => [h.fecK]
  | .fecM => [h.fecM]
  | .flags => [h.flags.bits]

/-- What a field holds when no entry carries its tag. -/
def Tag.initial : Tag → Option Bytes
  | .version => some [PROTOCOL_VERSION]
  | .type => none
  | .session | .seq | .ackSeq | .ackBitmap => some (u32Bytes 0)
  | .fecGroup => some (u16Bytes 0)
  | .fecIndex | .fecK | .fecM | .flags => some [0]

/-- The value of the last entry that carries a tag. -/
def lastValue (tag : Tag) : List Tlv → Option Bytes
  | [] => none
  | e :: es => (lastValue tag es).or (if Tag.ofByte e.tag = some tag then some e.value else none)

/-- The entries `es` are read as the header `h`. -/
@[mk_iff]
structure Spells (es : List Tlv) (h : PacketHeader) : Prop where
  accepts : ∀ e ∈ es, ∀ tag, Tag.ofByte e.tag = some tag → tag.Accepts e.value
  last : ∀ tag, ((lastValue tag es).map tag.reading).or tag.initial = some (tag.field h)

/-- The bytes of a field in the locals of the parse loop. -/
private def Fields.bytes (f : Fields) : Tag → Option Bytes
  | .version => some [f.version]
  | .type => f.packetType.map fun t => [t.toByte]
  | .session => some (u32Bytes f.sessionId)
  | .seq => some (u32Bytes f.seq)
  | .ackSeq => some (u32Bytes f.ackSeq)
  | .ackBitmap => some (u32Bytes f.ackBitmap)
  | .fecGroup => some (u16Bytes f.fecGroup)
  | .fecIndex => some [f.fecIndex]
  | .fecK => some [f.fecK]
  | .fecM => some [f.fecM]
  | .flags => some [f.flags.bits]

private theorem set_unknown {f : Fields} {b : UInt8} {v : Bytes} (unknown : Tag.ofByte b = none) :
    f.set b v = .ok f := by
  simp only [Fields.set, unknown]

private theorem set_accepted {f : Fields} {b : UInt8} {v : Bytes} {tag : Tag}
    (known : Tag.ofByte b = some tag) (accepted : tag.Accepts v) :
    ∃ f', f.set b v = .ok f' ∧
      ∀ t, f'.bytes t = if t = tag then some (tag.reading v) else f.bytes t := by
  cases tag with
  | session | seq | ackSeq | ackBitmap =>
      have four : v.length = 4 := accepted
      refine ⟨_, by simp only [Fields.set, known, u32v, if_pos four]; rfl, fun t => ?_⟩
      cases t <;> simp [Fields.bytes, Tag.reading, u32Bytes_u32Value four]
  | fecGroup =>
      have two : v.length = 2 := accepted
      refine ⟨_, by simp only [Fields.set, known, u16v, if_pos two]; rfl, fun t => ?_⟩
      cases t <;> simp [Fields.bytes, Tag.reading, u16Bytes_u16Value two]
  | type =>
      obtain ⟨x, first, isType⟩ := accepted
      obtain ⟨rest, rfl⟩ := List.head?_eq_some_iff.mp first
      obtain ⟨type, fromByte⟩ := Option.isSome_iff_exists.mp isType
      refine ⟨{ f with packetType := some type }, ?_, fun t => ?_⟩
      · simp only [Fields.set, known, u8v, Except.bind, fromByte]
      · cases t <;> simp [Fields.bytes, Tag.reading, PacketType.toByte_of_fromByte fromByte]
  | version | fecIndex | fecK | fecM | flags =>
      obtain ⟨x, rest, rfl⟩ := List.exists_cons_of_ne_nil accepted
      refine ⟨_, by simp only [Fields.set, known, u8v]; rfl, fun t => ?_⟩
      cases t <;> simp [Fields.bytes, Tag.reading, HeaderFlags.NONE]

private theorem accepted_of_set {f f' : Fields} {b : UInt8} {v : Bytes} {tag : Tag}
    (known : Tag.ofByte b = some tag) (set : f.set b v = .ok f') : tag.Accepts v := by
  cases tag with
  | session | seq | ackSeq | ackBitmap =>
      by_contra refused
      simp only [Fields.set, known, u32v, if_neg (show ¬ v.length = 4 from refused)] at set
      cases set
  | fecGroup =>
      by_contra refused
      simp only [Fields.set, known, u16v, if_neg (show ¬ v.length = 2 from refused)] at set
      cases set
  | type =>
      cases v with
      | nil =>
          simp only [Fields.set, known, u8v] at set
          cases set
      | cons x rest =>
          refine ⟨x, rfl, ?_⟩
          cases fromByte : PacketType.fromByte x with
          | some t => rfl
          | none =>
              simp only [Fields.set, known, u8v, Except.bind, fromByte] at set
              cases set
  | version | fecIndex | fecK | fecM | flags =>
      rintro rfl
      simp only [Fields.set, known, u8v] at set
      cases set

/-- The loop over the entries: all are accepted, and the last one of a tag wins. -/
private theorem setAll_ok_iff {f : Fields} {es : List Tlv} {final : Tag → Option Bytes} :
    (∃ f', f.setAll es = .ok f' ∧ ∀ tag, f'.bytes tag = final tag) ↔
      (∀ e ∈ es, ∀ tag, Tag.ofByte e.tag = some tag → tag.Accepts e.value) ∧
      ∀ tag, ((lastValue tag es).map tag.reading).or (f.bytes tag) = final tag := by
  induction es generalizing f with
  | nil =>
      simp only [Fields.setAll, lastValue, List.not_mem_nil, Option.map_none, Option.none_or,
        Except.ok.injEq, exists_eq_left', false_implies, implies_true, true_and]
  | cons e es ih =>
      simp only [Fields.setAll, List.forall_mem_cons, lastValue]
      cases known : Tag.ofByte e.tag with
      | none =>
          simp only [set_unknown known, Except.bind, ih, reduceCtorEq, false_implies, implies_true,
            true_and, if_false, Option.or_none]
      | some tag =>
          by_cases accepted : tag.Accepts e.value
          · obtain ⟨mid, set, bytes⟩ := set_accepted (f := f) known accepted
            simp only [set, Except.bind, ih, bytes, Option.some.injEq, forall_eq',
              accepted, true_and]
            refine and_congr_right fun _ => forall_congr' fun t => ?_
            -- the entry at hand matters exactly where no later one sets its tag
            by_cases same : t = tag
            · subst same
              cases lastValue t es <;> simp
            · have other : tag ≠ t := fun eq => same eq.symm
              simp [same, other]
          · constructor
            · rintro ⟨f', ran, -⟩
              cases set : f.set e.tag e.value with
              | error err =>
                  rw [set] at ran
                  cases ran
              | ok mid => exact absurd (accepted_of_set known set) accepted
            · rintro ⟨⟨head, -⟩, -⟩
              exact absurd (head tag rfl) accepted

private theorem Fields.finish_ok_iff {f : Fields} {h : PacketHeader} :
    f.finish = .ok h ↔ ∀ tag, f.bytes tag = some (tag.field h) := by
  constructor
  · intro finished
    unfold Fields.finish at finished
    split at finished
    · cases finished
    · rename_i type isType
      cases finished
      intro tag
      cases tag <;> simp [Fields.bytes, Tag.field, isType]
  · intro bytes
    have version := bytes .version
    have type := bytes .type
    have sid := bytes .session
    have seq := bytes .seq
    have ackSeq := bytes .ackSeq
    have ackBitmap := bytes .ackBitmap
    have group := bytes .fecGroup
    have index := bytes .fecIndex
    have k := bytes .fecK
    have m := bytes .fecM
    have flags := bytes .flags
    simp only [Fields.bytes, Tag.field, Option.some.injEq, List.cons.injEq, and_true,
      Option.map_eq_some_iff] at version type sid seq ackSeq ackBitmap group index k m flags
    obtain ⟨t, isType, sameType⟩ := type
    have type : t = h.packetType := by
      have known := PacketType.fromByte_toByte t
      rw [sameType, PacketType.fromByte_toByte] at known
      exact (Option.some.inj known).symm
    have flags : f.flags = h.flags := congrArg HeaderFlags.mk flags
    simp only [Fields.finish, isType]
    rw [version, type, u32Bytes_injective sid, u32Bytes_injective seq, u32Bytes_injective ackSeq,
      u32Bytes_injective ackBitmap, u16Bytes_injective group, index, k, m, flags]

/-! ## Whole headers -/

/-- The header bytes that spell the given entries. -/
def header (es : List Tlv) : Bytes := [V2_TLV_MAGIC] ++ be16 (spell es).length ++ spell es

@[simp]
theorem header_length (es : List Tlv) :
    (header es).length = V2_TLV_PREAMBLE + (spell es).length := by
  simp only [header, List.length_append, List.length_singleton, be16_length, V2_TLV_PREAMBLE]

theorem bodyLen_header {es : List Tlv} (fits : (spell es).length < 65536) (rest : Bytes) :
    bodyLen (header es ++ rest) = (spell es).length :=
  be16Value_be16 fits

theorem entries_header {es : List Tlv} (fits : (spell es).length < 65536) (rest : Bytes) :
    entries (header es ++ rest) = spell es := by
  have preamble : (header es ++ rest).drop V2_TLV_PREAMBLE = spell es ++ rest := by
    simp [header, be16, V2_TLV_PREAMBLE]
  rw [entries, bodyLen_header fits, slice, preamble, Nat.add_sub_cancel_left, List.take_left]

theorem bodyOffset_header {es : List Tlv} (fits : (spell es).length < 65536) (rest : Bytes) :
    bodyOffset (header es ++ rest) = (header es).length := by
  have magic : byteAt (header es ++ rest) 0 = V2_TLV_MAGIC := rfl
  have isFrame : ¬ (decide ((header es ++ rest).length < V2_TLV_PREAMBLE) ||
      byteAt (header es ++ rest) 0 != V2_TLV_MAGIC) = true := by
    simp only [magic, List.length_append, header_length, bne_self_eq_false, Bool.or_false,
      decide_eq_true_eq]
    omega
  rw [bodyOffset, if_neg isFrame, bodyLen_header fits, header_length, List.length_append,
    header_length]
  omega

/-- A buffer that starts with the magic byte and holds all announced entries
    splits into a header and a rest, when the entries are well delimited. -/
private theorem eq_header_append {buf : Bytes} {es : List Tlv}
    (long : V2_TLV_PREAMBLE ≤ buf.length) (magic : byteAt buf 0 = V2_TLV_MAGIC)
    (complete : V2_TLV_PREAMBLE + bodyLen buf ≤ buf.length) (spelled : entries buf = spell es) :
    (spell es).length < 65536 ∧ ∃ rest, buf = header es ++ rest := by
  have len : (spell es).length = bodyLen buf := by
    rw [← spelled, entries, slice_length complete, Nat.add_sub_cancel_left]
  refine ⟨len ▸ be16Value_lt _ _, buf.drop (V2_TLV_PREAMBLE + bodyLen buf), ?_⟩
  have preamble : buf.take V2_TLV_PREAMBLE = [V2_TLV_MAGIC] ++ be16 (bodyLen buf) := by
    rcases buf with _ | ⟨b0, _ | ⟨b1, _ | ⟨b2, rest⟩⟩⟩
    · simp [V2_TLV_PREAMBLE] at long
    · simp [V2_TLV_PREAMBLE] at long
    · simp [V2_TLV_PREAMBLE] at long
    · have magic : b0 = V2_TLV_MAGIC := magic
      have len : bodyLen (b0 :: b1 :: b2 :: rest) = be16Value b1 b2 := rfl
      rw [len, be16_be16Value, magic]
      rfl
  calc
    buf = buf.take (V2_TLV_PREAMBLE + bodyLen buf) ++ buf.drop (V2_TLV_PREAMBLE + bodyLen buf) :=
      (List.take_append_drop ..).symm
    _ = (buf.take V2_TLV_PREAMBLE ++ entries buf) ++ buf.drop (V2_TLV_PREAMBLE + bodyLen buf) := by
      rw [entries, take_append_slice buf (Nat.le_add_right ..)]
    _ = header es ++ buf.drop (V2_TLV_PREAMBLE + bodyLen buf) := by
      rw [preamble, spelled, header, len]

private theorem parsed_iff_spells {es : List Tlv} {h : PacketHeader} :
    (readTlvs {} (spell es)).bind Fields.finish = .ok h ↔ Spells es h := by
  have initial : ∀ tag : Tag, Fields.bytes {} tag = tag.initial := by
    intro tag
    cases tag <;> rfl
  have loop : (∃ f', Fields.setAll {} es = .ok f' ∧ ∀ tag,
    f'.bytes tag = some (tag.field h)) ↔ _ :=
    setAll_ok_iff
  simp only [initial] at loop
  rw [readTlvs_spell]
  calc
    _ ↔ ∃ f, Fields.setAll {} es = .ok f ∧ f.finish = .ok h := by
      cases Fields.setAll {} es <;> simp [Except.bind]
    _ ↔ Spells es h := by
      simp only [Fields.finish_ok_iff, loop, spells_iff]

theorem readHeader_header_ok_iff {es : List Tlv} {h : PacketHeader}
    (fits : (spell es).length < 65536) (rest : Bytes) :
    readHeader (header es ++ rest) = .ok h ↔ Spells es h := by
  have long : ¬ (header es ++ rest).length < V2_TLV_PREAMBLE := by
    simp
    omega
  have magic : byteAt (header es ++ rest) 0 = V2_TLV_MAGIC := rfl
  have complete : ¬ (header es ++ rest).length < V2_TLV_PREAMBLE +
    bodyLen (header es ++ rest) := by
    rw [bodyLen_header fits, List.length_append, header_length]
    omega
  rw [readHeader, if_neg long, if_neg (not_not.mpr magic), if_neg complete, entries_header fits]
  exact parsed_iff_spells

theorem readHeader_ok_iff {buf : Bytes} {h : PacketHeader} :
    readHeader buf = .ok h ↔
      ∃ es rest, (spell es).length < 65536 ∧ buf = header es ++ rest ∧ Spells es h := by
  constructor
  · intro accepted
    unfold readHeader at accepted
    split at accepted
    · cases accepted
    · rename_i long
      split at accepted
      · cases accepted
      · rename_i magic
        split at accepted
        · cases accepted
        · rename_i complete
          cases parsed : readTlvs {} (entries buf) with
          | error e =>
              rw [parsed] at accepted
              cases accepted
          | ok f =>
              obtain ⟨es, spelled⟩ := spell_of_readTlvs parsed
              obtain ⟨fits, rest, split⟩ := eq_header_append (Nat.not_lt.mp long)
                (not_not.mp magic) (Nat.not_lt.mp complete) spelled
              rw [spelled] at accepted
              exact ⟨es, rest, fits, split, parsed_iff_spells.mp accepted⟩
  · rintro ⟨es, rest, fits, rfl, spells⟩
    exact (readHeader_header_ok_iff fits rest).mpr spells

/-- Entries are read as some header exactly when each value is acceptable and one of
    them is the packet type. -/
theorem exists_spells_iff {es : List Tlv} :
    (∃ h, Spells es h) ↔
      (∀ e ∈ es, ∀ tag, Tag.ofByte e.tag = some tag → tag.Accepts e.value) ∧
        lastValue .type es ≠ none := by
  constructor
  · rintro ⟨h, spells⟩
    refine ⟨spells.accepts, fun absent => ?_⟩
    have last := spells.last .type
    rw [absent] at last
    cases last
  · rintro ⟨accepts, present⟩
    have loop : ∃ f', Fields.setAll {} es = .ok f' ∧
        ∀ tag, f'.bytes tag = ((lastValue tag es).map tag.reading).or (Fields.bytes {} tag) :=
      setAll_ok_iff.mpr ⟨accepts, fun _ => rfl⟩
    obtain ⟨f, ran, bytes⟩ := loop
    obtain ⟨value, isLast⟩ := Option.ne_none_iff_exists'.mp present
    have type := bytes .type
    rw [isLast] at type
    obtain ⟨t, isType, -⟩ := Option.map_eq_some_iff.mp type
    have parsed : (readTlvs {} (spell es)).bind Fields.finish = f.finish := by
      rw [readTlvs_spell, ran]
      rfl
    rw [Fields.finish, isType] at parsed
    exact ⟨_, parsed_iff_spells.mp parsed⟩

/-! ## The written header -/

def Tag.all : List Tag :=
  [.version, .type, .session, .seq, .ackSeq, .ackBitmap, .fecGroup, .fecIndex, .fecK, .fecM, .flags]

theorem Tag.mem_all (tag : Tag) : tag ∈ Tag.all := by
  cases tag <;> decide

theorem Tag.field_length_le (h : PacketHeader) (tag : Tag) : (tag.field h).length ≤ 4 := by
  cases tag <;> simp [Tag.field]

/-- Whether `write_header` writes the tag. -/
def written (h : PacketHeader) : Tag → Bool
  | .version | .type | .session | .seq => true
  | .ackSeq => h.ackSeq ≠ 0
  | .ackBitmap => h.ackBitmap ≠ 0
  | .fecGroup => h.fecGroup ≠ 0
  | .fecIndex => h.fecIndex ≠ 0
  | .fecK => h.fecK ≠ 0
  | .fecM => h.fecM ≠ 0
  | .flags => !h.flags.isEmpty

def entry (h : PacketHeader) (tag : Tag) : Tlv where
  tag := tag.toByte
  value := tag.field h
  short := Nat.lt_of_le_of_lt (tag.field_length_le h) (by decide)

/-- The entries of the canonical header. -/
def headerEntries (h : PacketHeader) : List Tlv := (Tag.all.filter (written h)).map (entry h)

theorem spell_headerEntries (h : PacketHeader) : spell (headerEntries h) = headerBody h := by
  have pieces : ∀ tags : List Tag, spell ((tags.filter (written h)).map (entry h)) =
      tags.flatMap fun tag => if written h tag then tlv tag (tag.field h) else [] := by
    intro tags
    induction tags with
    | nil => rfl
    | cons tag tags ih =>
        cases kept : written h tag
        · simp only [List.filter_cons, kept, List.flatMap_cons, Bool.false_eq_true, if_false,
            List.nil_append, ih]
        · simp only [List.filter_cons, kept, List.flatMap_cons, if_true, List.map_cons, spell_cons,
            ih]
          rfl
  rw [headerEntries, pieces]
  simp only [Tag.all, List.flatMap_cons, List.flatMap_nil, written, Tag.field, if_true,
    decide_eq_true_eq, headerBody, List.append_assoc, List.append_nil]
  congr 10
  by_cases empty : h.flags.isEmpty <;> simp [empty]

theorem headerBody_length_le (h : PacketHeader) : (headerBody h).length ≤ 46 := by
  have optional : ∀ (p : Prop) [Decidable p] (tag : Tag) (value : Bytes),
      (if p then tlv tag value else []).length ≤ 2 + value.length := by
    intro p _ tag value
    split
    · simp [tlv]
      omega
    · simp
  have flags : (if h.flags.isEmpty then [] else tlv .flags [h.flags.bits]).length ≤ 3 := by
    split
    · simp
    · simp [tlv]
  have ackSeq := optional (h.ackSeq ≠ 0) .ackSeq (u32Bytes h.ackSeq)
  have ackBitmap := optional (h.ackBitmap ≠ 0) .ackBitmap (u32Bytes h.ackBitmap)
  have group := optional (h.fecGroup ≠ 0) .fecGroup (u16Bytes h.fecGroup)
  have index := optional (h.fecIndex ≠ 0) .fecIndex [h.fecIndex]
  have k := optional (h.fecK ≠ 0) .fecK [h.fecK]
  have m := optional (h.fecM ≠ 0) .fecM [h.fecM]
  simp only [u32Bytes_length, u16Bytes_length,
    List.length_singleton] at ackSeq ackBitmap group index k m
  simp only [headerBody, List.length_append]
  have fixed : (tlv .version [h.version]).length + (tlv .type [h.packetType.toByte]).length +
      (tlv .session (u32Bytes h.sessionId)).length + (tlv .seq (u32Bytes h.seq)).length = 18 := by
    simp [tlv]
  omega

theorem spell_headerEntries_lt (h : PacketHeader) : (spell (headerEntries h)).length < 65536 := by
  have := headerBody_length_le h
  rw [spell_headerEntries]
  omega

private theorem lastValue_map_entry (h : PacketHeader) (tag : Tag) (tags : List Tag) :
    lastValue tag (tags.map (entry h)) = if tag ∈ tags then some (tag.field h) else none := by
  induction tags with
  | nil => rfl
  | cons t tags ih =>
      simp only [List.map_cons, lastValue, ih, entry, Tag.ofByte_toByte, Option.some.injEq,
        List.mem_cons]
      by_cases later : tag ∈ tags
      · simp [later]
      · by_cases here : t = tag
        · subst here
          simp [later]
        · simp [later, here, Ne.symm here]

theorem spells_headerEntries_unflagged (h : PacketHeader) :
    Spells (headerEntries h) { h with flags := .NONE } := by
  constructor
  · intro e inside tag known
    obtain ⟨t, -, rfl⟩ := List.mem_map.mp inside
    simp only [entry, Tag.ofByte_toByte, Option.some.injEq] at known
    subst known
    cases t <;> simp [Tag.Accepts, entry, Tag.field]
  · intro tag
    simp only [headerEntries, lastValue_map_entry, List.mem_filter, Tag.mem_all, true_and]
    cases kept : written h tag
    · -- an omitted field is at its initial value
      cases tag <;>
        simp_all [written, Tag.initial, Tag.field, HeaderFlags.isEmpty, HeaderFlags.NONE]
    · cases tag <;> simp_all [Tag.reading, Tag.field, HeaderFlags.NONE]

theorem spells_headerEntries {h : PacketHeader} (flags : h.flags = .NONE) :
    Spells (headerEntries h) h := by
  have spells := spells_headerEntries_unflagged h
  rw [← flags] at spells
  exact spells

theorem peekTlvs_bytes_append (e : Tlv) (rest : Bytes) :
    peekTlvs (e.bytes ++ rest) =
      if e.tag = Tag.session.toByte ∧ e.value.length = 4 then some (u32Value e.value)
      else peekTlvs rest := by
  have len := e.length_byte
  rw [Tlv.bytes, List.cons_append, List.cons_append, peekTlvs, len, if_neg (by simp),
    List.take_left, List.drop_left]

theorem peekTlvs_headerEntries (h : PacketHeader) :
    peekTlvs (spell (headerEntries h)) = some h.sessionId := by
  obtain ⟨later, entries⟩ : ∃ later, headerEntries h =
      entry h .version :: entry h .type :: entry h .session :: later := ⟨_, rfl⟩
  simp only [entries, spell_cons, peekTlvs_bytes_append]
  simp [entry, Tag.toByte, Tag.field]

end V2Tlv

namespace FrameCodec

/-! ## Both codecs -/

/-- `write_header` appends and never fails, so `encode_header` is what it writes. -/
theorem writeHeader_eq (codec : FrameCodec) (h : PacketHeader) (out : Bytes) :
    codec.writeHeader h out = .ok (out ++ codec.encodeHeader h) := by
  cases codec with
  | v1Fixed =>
      have long : ¬ (List.replicate HEADER_LEN (0 : UInt8)).length < HEADER_LEN := by simp
      simp only [encodeHeader, writeHeader, V1Fixed.writeHeader, PacketHeader.writeTo, if_neg long,
        Except.toOption, Option.getD_some, List.nil_append]
  | v2Tlv =>
      have short : ¬ 65535 < (V2Tlv.headerBody h).length := by
        have := V2Tlv.headerBody_length_le h
        omega
      simp only [encodeHeader, writeHeader, V2Tlv.writeHeader, if_neg short, Except.toOption,
        Option.getD_some, List.nil_append, List.append_assoc]

theorem encodeHeader_v1Fixed (h : PacketHeader) : v1Fixed.encodeHeader h = h.toBytes := by
  have wrote := writeHeader_eq .v1Fixed h []
  have long : ¬ (List.replicate HEADER_LEN (0 : UInt8)).length < HEADER_LEN := by simp
  simp only [writeHeader, V1Fixed.writeHeader, PacketHeader.writeTo, if_neg long, List.nil_append,
    Except.ok.injEq, List.drop_replicate, Nat.sub_self, List.replicate_zero,
    List.append_nil] at wrote
  exact wrote.symm

theorem encodeHeader_v2Tlv (h : PacketHeader) :
    v2Tlv.encodeHeader h = V2Tlv.header (V2Tlv.headerEntries h) := by
  have wrote := writeHeader_eq .v2Tlv h []
  have short : ¬ 65535 < (V2Tlv.headerBody h).length := by
    have := V2Tlv.headerBody_length_le h
    omega
  simp only [writeHeader, V2Tlv.writeHeader, if_neg short, List.nil_append,
    Except.ok.injEq] at wrote
  rw [← wrote, V2Tlv.header, V2Tlv.spell_headerEntries]

theorem encodeHeader_length_le (codec : FrameCodec) (h : PacketHeader) :
    (codec.encodeHeader h).length ≤ codec.maxHeaderLen := by
  cases codec with
  | v1Fixed =>
      rw [encodeHeader_v1Fixed, PacketHeader.toBytes_length]
      exact Nat.le_refl _
  | v2Tlv =>
      have := V2Tlv.headerBody_length_le h
      rw [encodeHeader_v2Tlv, V2Tlv.header_length, V2Tlv.spell_headerEntries]
      simp only [maxHeaderLen, V2Tlv.maxHeaderLen]
      omega

theorem readHeader_encodeFrame (codec : FrameCodec) {h : PacketHeader} (current : h.Current)
    (body : Bytes) : codec.readHeader (codec.encodeFrame h body) = .ok h := by
  cases codec with
  | v1Fixed =>
      rw [encodeFrame, encodeHeader_v1Fixed, readHeader, V1Fixed.readHeader,
        PacketHeader.readFrom_toBytes current]
      rfl
  | v2Tlv =>
      rw [encodeFrame, encodeHeader_v2Tlv]
      exact V2Tlv.readHeader_ok_iff.mpr
        ⟨_, body, V2Tlv.spell_headerEntries_lt h, rfl, V2Tlv.spells_headerEntries current.flags⟩

theorem bodyOffset_encodeFrame (codec : FrameCodec) (h : PacketHeader) (body : Bytes) :
    codec.bodyOffset (codec.encodeFrame h body) = (codec.encodeHeader h).length := by
  cases codec with
  | v1Fixed => simp [encodeFrame, bodyOffset, V1Fixed.bodyOffset, encodeHeader_v1Fixed]
  | v2Tlv =>
      rw [encodeFrame, encodeHeader_v2Tlv]
      exact V2Tlv.bodyOffset_header (V2Tlv.spell_headerEntries_lt h) body

/-- Encoding a header that was read, and reading it again, changes nothing: the
    fixed layout refuses other versions, and both clear the flags. -/
theorem readHeader_encodeFrame_of_read (codec : FrameCodec) {frame : Bytes} {h : PacketHeader}
    (read : codec.readHeader frame = .ok h) (body : Bytes) :
    codec.readHeader (codec.encodeFrame h body) = .ok h := by
  cases codec with
  | v1Fixed =>
      apply readHeader_encodeFrame
      simp only [readHeader, V1Fixed.readHeader] at read
      cases accepted : PacketHeader.readFrom frame with
      | error e => simp [accepted, Except.mapError] at read
      | ok h' =>
          rw [accepted] at read
          cases read
          exact (PacketHeader.toBytes_of_readFrom accepted).1
  | v2Tlv =>
      obtain ⟨es, rest, -, -, spells⟩ := V2Tlv.readHeader_ok_iff.mp read
      have bits : [0] = [h.flags.bits] := by
        have last := spells.last .flags
        cases found : V2Tlv.lastValue .flags es with
        | none => simpa [found, V2Tlv.Tag.initial, V2Tlv.Tag.field] using last
        | some value => simpa [found, V2Tlv.Tag.reading, V2Tlv.Tag.field] using last
      have flags : h.flags = .NONE := by
        have zero := (List.cons.inj bits).1
        cases same : h.flags with
        | mk b =>
            rw [same] at zero
            exact congrArg HeaderFlags.mk zero.symm
      rw [encodeFrame, encodeHeader_v2Tlv]
      exact V2Tlv.readHeader_ok_iff.mpr
        ⟨_, body, V2Tlv.spell_headerEntries_lt h, rfl, V2Tlv.spells_headerEntries flags⟩

/-- The encoding of a header that was read determines it. -/
theorem encodeHeader_injective (codec : FrameCodec) {h h' : PacketHeader} {frame : Bytes}
    (current : h.Current) (read : codec.readHeader frame = .ok h')
    (same : codec.encodeHeader h' = codec.encodeHeader h) : h' = h := by
  have again := readHeader_encodeFrame_of_read codec read []
  rw [encodeFrame, same] at again
  exact Except.ok.inj (again.symm.trans (readHeader_encodeFrame codec current []))

/-- No header starts like a decoy. -/
theorem head_of_readHeader (codec : FrameCodec) {frame : Bytes} {h : PacketHeader}
    (read : codec.readHeader frame = .ok h) :
    frame.head? = some PROTOCOL_VERSION ∨ frame.head? = some V2_TLV_MAGIC := by
  have first : ∀ b, byteAt frame 0 = b → frame ≠ [] → frame.head? = some b := by
    intro b same nonempty
    cases frame with
    | nil => exact absurd rfl nonempty
    | cons c rest => exact congrArg some same
  cases codec with
  | v1Fixed =>
      left
      simp only [readHeader, V1Fixed.readHeader, PacketHeader.readFrom] at read
      split at read
      · cases read
      · rename_i long
        split at read
        · cases read
        · rename_i version
          refine first _ (not_not.mp version) fun empty => ?_
          rw [empty] at long
          exact long (by decide)
  | v2Tlv =>
      right
      simp only [readHeader, V2Tlv.readHeader] at read
      split at read
      · cases read
      · rename_i long
        split at read
        · cases read
        · rename_i magic
          refine first _ (not_not.mp magic) fun empty => ?_
          rw [empty] at long
          exact long (by decide)

/-! ## Routing -/

theorem looksLikeFrame_of_readHeader (codec : FrameCodec) {frame : Bytes} {h : PacketHeader}
    (read : codec.readHeader frame = .ok h) : codec.looksLikeFrame frame := by
  cases codec with
  | v1Fixed =>
      simp only [readHeader, V1Fixed.readHeader, PacketHeader.readFrom] at read
      split at read
      · cases read
      · rename_i long
        split at read
        · cases read
        · rename_i version
          cases type : PacketType.fromByte (byteAt frame 1) with
          | none => simp [type, Except.mapError] at read
          | some t =>
              have long : V1_ROUTE_PREFIX_LEN ≤ frame.length :=
                Nat.le_trans (by decide) (Nat.not_lt.mp long)
              simp [looksLikeFrame, V1Fixed.looksLikeFrame, type, long, not_not.mp version]
  | v2Tlv =>
      simp only [readHeader, V2Tlv.readHeader] at read
      split at read
      · cases read
      · rename_i long
        split at read
        · cases read
        · rename_i magic
          simp [looksLikeFrame, V2Tlv.looksLikeFrame, Nat.not_lt.mp long, not_not.mp magic]

theorem looksLikeFrame_unique {codec other : FrameCodec} {frame : Bytes}
    (claimed : codec.looksLikeFrame frame) (also : other.looksLikeFrame frame) : other = codec := by
  have distinct : ¬ (V1Fixed.looksLikeFrame frame ∧ V2Tlv.looksLikeFrame frame) := by
    simp only [V1Fixed.looksLikeFrame, V2Tlv.looksLikeFrame, Bool.and_eq_true, beq_iff_eq]
    rintro ⟨⟨⟨-, version⟩, -⟩, -, magic⟩
    rw [version] at magic
    exact absurd magic (by decide)
  cases codec with
  | v1Fixed =>
      cases other with
      | v1Fixed => rfl
      | v2Tlv => exact (distinct ⟨claimed, also⟩).elim
  | v2Tlv =>
      cases other with
      | v1Fixed => exact (distinct ⟨also, claimed⟩).elim
      | v2Tlv => rfl

theorem peekSessionId_encodeFrame (codec : FrameCodec) {h : PacketHeader} (current : h.Current)
    (body : Bytes) : codec.peekSessionId (codec.encodeFrame h body) = some h.sessionId := by
  have claimed := codec.looksLikeFrame_of_readHeader (readHeader_encodeFrame codec current body)
  cases codec with
  | v1Fixed =>
      have routed : slice (h.toBytes ++ body) 2 6 = u32Bytes h.sessionId := rfl
      simp only [looksLikeFrame, encodeFrame, encodeHeader_v1Fixed] at claimed
      simp only [peekSessionId, V1Fixed.peekSessionId, encodeFrame, encodeHeader_v1Fixed, claimed,
        if_true, routed, u32Value_u32Bytes]
  | v2Tlv =>
      have fits := V2Tlv.spell_headerEntries_lt h
      simp only [looksLikeFrame, encodeFrame, encodeHeader_v2Tlv] at claimed
      simp only [peekSessionId, V2Tlv.peekSessionId, encodeFrame, encodeHeader_v2Tlv, claimed,
        V2Tlv.bodyLen_header fits, V2Tlv.entries_header fits, V2Tlv.peekTlvs_headerEntries]
      simp

theorem peekAnySessionId_encodeFrame (codec : FrameCodec) {h : PacketHeader} (current : h.Current)
    (body : Bytes) : peekAnySessionId (codec.encodeFrame h body) = some h.sessionId := by
  have own := peekSessionId_encodeFrame codec current body
  have claimed := codec.looksLikeFrame_of_readHeader (readHeader_encodeFrame codec current body)
  cases codec with
  | v1Fixed => simp only [peekAnySessionId, ALL_CODECS, List.findSome?_cons, own]
  | v2Tlv =>
      -- the fixed layout, which is tried first, does not claim the frame
      have foreign : ¬ V1Fixed.looksLikeFrame (v2Tlv.encodeFrame h body) = true := fun also =>
        absurd (looksLikeFrame_unique claimed (show v1Fixed.looksLikeFrame _ from also)) (by decide)
      have none : v1Fixed.peekSessionId (v2Tlv.encodeFrame h body) = none := by
        simp only [peekSessionId, V1Fixed.peekSessionId, if_neg foreign]
      simp only [peekAnySessionId, ALL_CODECS, List.findSome?_cons, none, own]

/-- What one side writes, the other reads back, authenticates, routes and
    attributes to the codec that wrote it. -/
theorem encodeFrame_correct (codec : FrameCodec) {h : PacketHeader} (current : h.Current)
    (ciphertext : Bytes) :
    let frame := codec.encodeFrame h ciphertext
    codec.readHeader frame = .ok h ∧
    frame.drop (codec.bodyOffset frame) = ciphertext ∧
    (∀ decoded, codec.readHeader frame = .ok decoded →
      codec.encodeHeader decoded = frame.take (codec.bodyOffset frame)) ∧
    codec.bodyOffset frame ≤ codec.maxHeaderLen ∧
    peekAnySessionId frame = some h.sessionId ∧
    ∀ other : FrameCodec, other.looksLikeFrame frame ↔ other = codec := by
  intro frame
  have read : codec.readHeader frame = .ok h := readHeader_encodeFrame codec current ciphertext
  have offset : codec.bodyOffset frame = (codec.encodeHeader h).length :=
    bodyOffset_encodeFrame codec h ciphertext
  have claimed := codec.looksLikeFrame_of_readHeader read
  refine ⟨read, ?_, fun decoded again => ?_, ?_,
    peekAnySessionId_encodeFrame codec current ciphertext, fun other =>
    ⟨looksLikeFrame_unique claimed, fun same => same ▸ claimed⟩⟩
  · rw [offset, show frame = codec.encodeHeader h ++ ciphertext from rfl, List.drop_left]
  · have same : h = decoded := Except.ok.inj (read.symm.trans again)
    rw [← same, offset, show frame = codec.encodeHeader h ++ ciphertext from rfl, List.take_left]
  · rw [offset]
    exact encodeHeader_length_le codec h

/-- A ping of the TLV layout: nothing but the four entries that are always written. -/
theorem ping_frame_correct :
    let ping := PacketHeader.new .ping 7 3
    let frame := v2Tlv.encodeFrame ping [0xAA]
    frame = [0x52, 0, 18, 1, 1, 1, 2, 1, 6, 3, 4, 7, 0, 0, 0, 4, 4, 3, 0, 0, 0, 0xAA] ∧
    v2Tlv.readHeader frame = .ok ping ∧
    frame.drop (v2Tlv.bodyOffset frame) = [0xAA] ∧
    peekAnySessionId frame = some 7 :=
  have correct := encodeFrame_correct v2Tlv (h := PacketHeader.new .ping 7 3) ⟨rfl, rfl⟩ [0xAA]
  ⟨by decide, correct.1, correct.2.1, correct.2.2.2.2.1⟩

/-- The header bytes of `frame` are another spelling of `h`: in the fixed layout
    they agree with it in every byte but the flags, in the TLV layout they are
    entries that give each field of `h` its value. -/
def Respells : FrameCodec → Bytes → PacketHeader → Prop
  | .v1Fixed, frame, h => HEADER_LEN ≤ frame.length ∧ frame.take 23 = h.toBytes.take 23
  | .v2Tlv, frame, h => ∃ es, (V2Tlv.spell es).length < 65536 ∧
      frame.take (V2Tlv.bodyOffset frame) = V2Tlv.header es ∧ V2Tlv.Spells es h

theorem readHeader_ok_iff_respells (codec : FrameCodec) {frame : Bytes} {h : PacketHeader}
    (current : h.Current) : codec.readHeader frame = .ok h ↔ codec.Respells frame h := by
  cases codec with
  | v1Fixed =>
      simp only [readHeader, V1Fixed.readHeader, Respells, ← PacketHeader.readFrom_ok_iff current]
      cases PacketHeader.readFrom frame <;> simp [Except.mapError]
  | v2Tlv =>
      simp only [readHeader, Respells, V2Tlv.readHeader_ok_iff]
      constructor
      · rintro ⟨es, rest, fits, rfl, spells⟩
        refine ⟨es, fits, ?_, spells⟩
        rw [V2Tlv.bodyOffset_header fits, List.take_left]
      · rintro ⟨es, fits, spelled, spells⟩
        refine ⟨es, frame.drop (V2Tlv.bodyOffset frame), fits, ?_, spells⟩
        rw [← spelled, List.take_append_drop]

end FrameCodec

end Rustnies
