import Rustnies.Protocol.Profile

/-! # Offers and selections on the wire

An offer is four lists with their lengths in front, and a selection is a row of ids.
Both grew at their end: what an older peer sends stops before the frame codec, and
means the first codec. Any other cut is rejected.
-/

namespace Rustnies

/-- No list is longer than the decoder takes. -/
structure ClientOffer.Bounded (offer : ClientOffer) : Prop where
  ciphers : offer.cipherIds.length ≤ MAX_OFFER_ALTERNATIVES
  transports : offer.transportIds.length ≤ MAX_OFFER_ALTERNATIVES
  fecs : offer.fecIds.length ≤ MAX_OFFER_ALTERNATIVES
  frames : offer.frameIds.length ≤ MAX_OFFER_ALTERNATIVES

/-! ## One list -/

theorem encodeList_eq {ids : List UInt8} (short : ids.length ≤ MAX_OFFER_ALTERNATIVES) :
    ClientOffer.encodeList ids = UInt8.ofNat ids.length :: ids := by
  simp only [ClientOffer.encodeList, Nat.min_eq_left short, List.take_length]

theorem toNat_ofNat_length {ids : List UInt8} (short : ids.length ≤ MAX_OFFER_ALTERNATIVES) :
    (UInt8.ofNat ids.length).toNat = ids.length := by
  have small : ids.length < 256 := Nat.lt_of_le_of_lt short (by decide)
  simpa using small

theorem takeList_encodeList {ids : List UInt8} (short : ids.length ≤ MAX_OFFER_ALTERNATIVES)
    (rest : Bytes) :
    takeList (ClientOffer.encodeList ids ++ rest) = .ok (ids, rest) := by
  rw [encodeList_eq short]
  simp only [List.cons_append, takeList, toNat_ofNat_length short, if_neg (Nat.not_lt.mpr short),
    List.length_append, if_neg (Nat.not_lt.mpr (Nat.le_add_right ids.length rest.length)),
    List.take_left, List.drop_left]

theorem length_of_takeList {payload rest : Bytes} {ids : List UInt8}
    (taken : takeList payload = .ok (ids, rest)) :
    ids.length ≤ MAX_OFFER_ALTERNATIVES := by
  cases payload with
  | nil => cases taken
  | cons n body =>
      simp only [takeList] at taken
      split at taken
      · cases taken
      · split at taken
        · cases taken
        · rename_i short fits
          cases taken
          rw [List.length_take]
          omega

/-- A cut through a list and what follows it: inside the list it is rejected, behind it
    the list is taken. -/
theorem takeList_of_isPrefix {ids : List UInt8} {cut more : Bytes}
    (short : ids.length ≤ MAX_OFFER_ALTERNATIVES)
    (isCut : cut <+: ClientOffer.encodeList ids ++ more) :
    (∃ why, takeList cut = .error (.malformed why)) ∨
      ∃ rest, cut = ClientOffer.encodeList ids ++ rest ∧ rest <+: more := by
  rw [encodeList_eq short] at isCut ⊢
  cases cut with
  | nil => exact .inl ⟨_, rfl⟩
  | cons n body =>
      obtain ⟨rfl, isBody⟩ := List.cons_prefix_cons.mp isCut
      by_cases inside : body.length < ids.length
      · refine .inl ⟨"truncated list body", ?_⟩
        simp only [takeList, toNat_ofNat_length short, if_neg (Nat.not_lt.mpr short), if_pos inside]
      · obtain ⟨rest, rfl⟩ : ids <+: body :=
          List.prefix_of_prefix_length_le (List.prefix_append ids more) isBody
            (Nat.le_of_not_lt inside)
        exact .inr ⟨rest, rfl, (List.prefix_append_right_inj ids).mp isBody⟩

/-! ## The offer -/

namespace ClientOffer

/-- The encoding up to the frame list, which is what an older peer sends. -/
def beforeFrames (offer : ClientOffer) : Bytes :=
  NEGOTIATION_VERSION ::
    (encodeList offer.cipherIds ++ encodeList offer.transportIds ++ encodeList offer.fecIds)

theorem encode_eq (offer : ClientOffer) :
    offer.encode = offer.beforeFrames ++ encodeList offer.frameIds := rfl

theorem decode_beforeFrames {offer : ClientOffer} (bounded : offer.Bounded) (rest : Bytes) :
    decode (offer.beforeFrames ++ rest) =
      if rest.isEmpty then .ok (some { offer with frameIds := [FRAME_V1_FIXED] })
      else (takeList rest).map fun taken => some { offer with frameIds := taken.1 } := by
  simp only [beforeFrames, List.cons_append, decode, ne_eq, not_true, if_false, List.append_assoc,
    bind, Except.bind, takeList_encodeList bounded.ciphers, takeList_encodeList bounded.transports,
    takeList_encodeList bounded.fecs]
  split
  · rfl
  · cases takeList rest <;> rfl

theorem decode_encode {offer : ClientOffer} (bounded : offer.Bounded) :
    decode offer.encode = .ok (some offer) := by
  have lastList := takeList_encodeList bounded.frames []
  rw [List.append_nil] at lastList
  rw [encode_eq, decode_beforeFrames bounded, lastList]
  rfl

/-- What a decoder makes of a cut encoding: no offer, the offer of an older peer, or
    an error. -/
structure Truncated (offer : ClientOffer) (cut : Bytes) : Prop where
  empty : cut = [] → decode cut = .ok none
  older : cut = offer.beforeFrames → decode cut =
    .ok (some { offer with frameIds := [FRAME_V1_FIXED] })
  rejected : cut ≠ [] → cut ≠ offer.beforeFrames → ∃ why,
    decode cut = .error (.malformed why)

/-- A cut encoding stops in one of the first three lists, or has all of them. -/
theorem cut_cases {offer : ClientOffer} (bounded : offer.Bounded) {cut : Bytes}
    (isCut : cut <+: offer.encode) :
    cut = [] ∨ (∃ why, decode cut = .error (.malformed why)) ∨
      ∃ rest, cut = offer.beforeFrames ++ rest ∧ rest <+: encodeList offer.frameIds := by
  cases cut with
  | nil => exact .inl rfl
  | cons version cut =>
      simp only [encode, List.append_assoc] at isCut
      obtain ⟨rfl, inLists⟩ := List.cons_prefix_cons.mp isCut
      refine .inr ?_
      simp only [decode, ne_eq, not_true, if_false, bind, Except.bind]
      rcases takeList_of_isPrefix bounded.ciphers inLists
        with ⟨why, short⟩ | ⟨rest, rfl, behindCiphers⟩
      · exact .inl ⟨why, by simp only [short]⟩
      · simp only [takeList_encodeList bounded.ciphers]
        rcases takeList_of_isPrefix bounded.transports behindCiphers
          with ⟨why, short⟩ | ⟨rest, rfl, behindTransports⟩
        · exact .inl ⟨why, by simp only [short]⟩
        · simp only [takeList_encodeList bounded.transports]
          rcases takeList_of_isPrefix bounded.fecs behindTransports
            with ⟨why, short⟩ | ⟨rest, rfl, behindFecs⟩
          · exact .inl ⟨why, by simp only [short]⟩
          · refine .inr ⟨rest, ?_, behindFecs⟩
            simp only [beforeFrames, List.cons_append, List.append_assoc]

theorem truncated {offer : ClientOffer} (bounded : offer.Bounded) {cut : Bytes}
    (isCut : cut <+: offer.encode) (proper : cut ≠ offer.encode) : offer.Truncated cut := by
  have older := decode_beforeFrames bounded []
  rw [List.append_nil] at older
  refine ⟨fun isNil => isNil ▸ rfl, fun isOlder => isOlder ▸ older,
    fun nonempty elsewhere => ?_⟩
  rcases cut_cases bounded isCut with isNil | rejected | ⟨rest, rfl, inFrames⟩
  · exact absurd isNil nonempty
  · exact rejected
  · rw [← List.append_nil (encodeList offer.frameIds)] at inFrames
    rcases takeList_of_isPrefix bounded.frames inFrames
      with ⟨why, short⟩ | ⟨rest, rfl, behindFrames⟩
    · refine ⟨why, ?_⟩
      have isLeft : ¬ rest.isEmpty := by
        intro isNil
        rw [List.isEmpty_iff.mp isNil, List.append_nil] at elsewhere
        exact elsewhere rfl
      rw [decode_beforeFrames bounded, if_neg isLeft, short]
      rfl
    · -- the whole encoding is no proper cut
      rw [List.prefix_nil.mp behindFrames, List.append_nil] at proper
      exact absurd rfl proper

theorem bounded_of_decode {payload : Bytes} {offer : ClientOffer}
    (accepted : decode payload = .ok (some offer)) :
    offer.Bounded := by
  cases payload with
  | nil => cases accepted
  | cons version rest =>
      simp only [decode] at accepted
      split at accepted
      · cases accepted
      · obtain ⟨taken₁, ciphers, accepted⟩ := bind_eq_ok_iff.mp accepted
        obtain ⟨taken₂, transports, accepted⟩ := bind_eq_ok_iff.mp accepted
        obtain ⟨taken₃, fecs, accepted⟩ := bind_eq_ok_iff.mp accepted
        split at accepted
        · cases accepted
          exact ⟨length_of_takeList ciphers, length_of_takeList transports,
            length_of_takeList fecs,
            by simp [MAX_OFFER_ALTERNATIVES]⟩
        · obtain ⟨taken₄, frames, accepted⟩ := bind_eq_ok_iff.mp accepted
          cases accepted
          exact ⟨length_of_takeList ciphers, length_of_takeList transports,
            length_of_takeList fecs, length_of_takeList frames⟩

end ClientOffer

/-! ## The selection -/

namespace Selection

/-- What the server encodes is what the client decodes. -/
theorem decode_encode (sel : Selection) : decode sel.encode = .ok sel := by
  simp [decode, encode, byteAt, NEGOTIATION_VERSION, SELECTION_LEGACY_LEN]

/-- What a decoder makes of a cut selection: the defaults, the selection of an older
    peer, or an error. -/
structure Truncated (sel : Selection) (cut : Bytes) : Prop where
  empty : cut = [] → decode cut = .ok defaults
  older : cut.length = SELECTION_LEGACY_LEN → decode cut =
    .ok { sel with frame := FRAME_V1_FIXED }
  rejected : cut ≠ [] → cut.length ≠ SELECTION_LEGACY_LEN → ∃ why,
    decode cut = .error (.malformed why)

theorem truncated {sel : Selection} {cut : Bytes} (isCut : cut <+: sel.encode)
    (proper : cut ≠ sel.encode) :
    sel.Truncated cut := by
  have shorter : cut.length ≤ SELECTION_LEGACY_LEN := by
    have atMost : cut.length ≤ 7 := isCut.length_le
    have different : cut.length ≠ 7 := fun same => proper (isCut.eq_of_length same)
    simp only [SELECTION_LEGACY_LEN]
    omega
  have isTake : cut = sel.encode.take cut.length := List.prefix_iff_eq_take.mp isCut
  refine ⟨fun isNil => isNil ▸ rfl, fun isOlder => ?_, fun nonempty elsewhere => ?_⟩
  · rw [isTake, isOlder]
    rfl
  · cases cut with
    | nil => exact absurd rfl nonempty
    | cons version rest =>
        obtain ⟨rfl, -⟩ := List.cons_prefix_cons.mp isCut
        refine ⟨"selection shorter than 6 bytes", ?_⟩
        simp only [decode, List.isEmpty_cons, byteAt, List.getD_cons_zero, ne_eq, not_true,
          if_false, Bool.false_eq_true, if_pos (Nat.lt_of_le_of_ne shorter elsewhere)]

end Selection

/-- An offer of bounded lists and a selection survive the wire; a cut one is what an
    older peer sends or is rejected; and an accepted offer is kept by encoding it again. -/
theorem payloads_survive_the_wire :
    (∀ offer : ClientOffer, offer.Bounded →
      ClientOffer.decode offer.encode = .ok (some offer) ∧
        ∀ cut, cut <+: offer.encode → cut ≠ offer.encode → offer.Truncated cut) ∧
    (∀ sel : Selection,
      Selection.decode sel.encode = .ok sel ∧ ∀ cut, cut <+: sel.encode → cut ≠
      sel.encode → sel.Truncated cut) ∧
    ∀ payload offer, ClientOffer.decode payload = .ok (some offer) →
      ClientOffer.decode offer.encode = .ok (some offer) := by
  refine ⟨fun offer bounded =>
    ⟨ClientOffer.decode_encode bounded, fun cut isCut proper => ?_⟩, fun sel =>
    ⟨sel.decode_encode, fun cut isCut proper => ?_⟩, fun payload offer accepted => ?_⟩
  · exact ClientOffer.truncated bounded isCut proper
  · exact Selection.truncated isCut proper
  · exact ClientOffer.decode_encode (ClientOffer.bounded_of_decode accepted)

/-- An offer of two codecs, whole and without them. -/
theorem two_codecs_survive_the_wire :
    ClientOffer.decode [1, 1, 1, 0, 1, 1, 2, 2, 1] = .ok (some ⟨[1], [], [1], [2, 1]⟩) ∧
      ClientOffer.decode [1, 1, 1, 0, 1, 1] = .ok (some ⟨[1], [], [1], [FRAME_V1_FIXED]⟩) := by
  have bounded : ClientOffer.Bounded ⟨[1], [], [1], [2, 1]⟩ :=
    ⟨by decide, by decide, by decide, by decide⟩
  have survives := payloads_survive_the_wire.1 ⟨[1], [], [1], [2, 1]⟩ bounded
  exact ⟨survives.1, (survives.2 [1, 1, 1, 0, 1, 1] (by decide) (by decide)).older rfl⟩

end Rustnies
