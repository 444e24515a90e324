import Rustnies.Protocol.Profile

/-! # What a negotiation chooses

For each part the server's order decides among what the client offers, then the
client's order among what this build can run. A client that does not mention a part
leaves it to the first id of the server; the marker for the handshake's envelope is no
id, and stands only where the server lists nothing else. Both ends can run what comes
out.
-/

namespace Rustnies

/-! ## The first of a kind -/

/-- The first element of a list that has the property. -/
def FirstWith {α : Type} (p : α → Prop) (list : List α) (a : α) : Prop :=
  p a ∧ ∃ before after, list = before ++ a :: after ∧ ∀ b ∈ before, ¬ p b

theorem FirstWith.mem {α : Type} {p : α → Prop} {list : List α} {a : α}
    (first : FirstWith p list a) : a ∈ list := by
  obtain ⟨-, before, after, rfl, -⟩ := first
  simp

theorem find?_eq_some_iff_firstWith {α : Type} {p : α → Bool} {list : List α} {a : α} :
    list.find? p = some a ↔ FirstWith (fun a => p a = true) list a := by
  simp only [List.find?_eq_some_iff_append, FirstWith, Bool.not_eq_true', Bool.not_eq_true]

theorem reduceOption_eq (candidates : List (Option UInt8)) :
    candidates.reduceOption = candidates.filterMap id := rfl

theorem find?_reduceOption_iff {p : UInt8 → Bool} {candidates : List (Option UInt8)}
    {id : UInt8} :
    candidates.reduceOption.find? p = some id ↔ FirstWith (fun c => c.any p = true) candidates
    (some id) := by
  rw [← find?_eq_some_iff_firstWith, reduceOption_eq, List.find?_filterMap]
  simp only [id_eq]
  cases candidates.find? (Option.any p) <;> simp

/-! ## Preferences of a configuration -/

/-- What the configuration is checked for: no list is empty, and every name is known. -/
structure ProfilePrefs.Valid (prefs : ProfilePrefs) : Prop where
  some_cipher : prefs.ciphers ≠ []
  ciphers : ∀ name ∈ prefs.ciphers, (selectCipher name).isSome
  transports : ∀ name ∈ prefs.transports, trim name = TRANSPORT_SAME_AS_HANDSHAKE ∨
    (transportId name).isSome
  some_fec : prefs.fecs ≠ []
  fecs : ∀ name ∈ prefs.fecs, (selectFecScheme name).isSome
  some_frame : prefs.frames ≠ []
  frames : ∀ name ∈ prefs.frames, (buildFrameCodec name).toOption.isSome

theorem nonEmptyOr_ne_nil (list : List String) (default : String) :
    nonEmptyOr list default ≠ [] := by
  rw [nonEmptyOr]
  split
  · simp
  · simp_all

theorem forM_check_ok_iff {α : Type} {names : List α} {fine : α → Prop} [DecidablePred fine]
    {e : α → ProfileError} :
    (names.forM fun name => if fine name then .ok () else .error (e name)) =
    (.ok () : Except ProfileError Unit) ↔ ∀ name ∈ names, fine name := by
  induction names with
  | nil => simp [pure, Except.pure]
  | cons name names ih =>
      simp only [List.forall_mem_cons]
      by_cases isFine : fine name
      · simpa [isFine, bind, Except.bind] using ih
      · simp [isFine, bind, Except.bind]

theorem ProfilePrefs.valid_of_resolve {debug : String → String}
    {ciphers transports fecs frames : List String} {prefs : ProfilePrefs}
    (resolved : resolve debug ciphers transports fecs frames = .ok prefs) : prefs.Valid := by
  simp only [resolve] at resolved
  obtain ⟨⟨⟩, ciphersFine, resolved⟩ := bind_eq_ok_iff.mp resolved
  obtain ⟨⟨⟩, transportsFine, resolved⟩ := bind_eq_ok_iff.mp resolved
  obtain ⟨⟨⟩, fecsFine, resolved⟩ := bind_eq_ok_iff.mp resolved
  obtain ⟨⟨⟩, framesFine, resolved⟩ := bind_eq_ok_iff.mp resolved
  cases resolved
  exact {
    some_cipher := nonEmptyOr_ne_nil _ _
    ciphers := forM_check_ok_iff.mp ciphersFine
    transports := forM_check_ok_iff.mp transportsFine
    some_fec := nonEmptyOr_ne_nil _ _
    fecs := forM_check_ok_iff.mp fecsFine
    some_frame := nonEmptyOr_ne_nil _ _
    frames := forM_check_ok_iff.mp framesFine }

theorem ProfilePrefs.known_of_mem_ids {prefs : ProfilePrefs} {part : Part} {id : UInt8}
    (listed : some id ∈ prefs.ids part) : (part.known id).isSome := by
  cases part with
  | cipher =>
      obtain ⟨name, -, isId⟩ := List.mem_filterMap.mp listed
      obtain ⟨kind, -, isId⟩ := Option.map_eq_some_iff.mp isId
      cases isId
      cases kind
      rfl
  | transport =>
      obtain ⟨name, -, isId⟩ := List.mem_map.mp listed
      split at isId
      · cases isId
      · simp only [transportId] at isId
        split at isId
        · cases isId
          rfl
        · split at isId
          · cases isId
            rfl
          · cases isId
  | fec =>
      obtain ⟨name, -, isId⟩ := List.mem_filterMap.mp listed
      obtain ⟨kind, -, isId⟩ := Option.map_eq_some_iff.mp isId
      cases isId
      cases kind <;> rfl
  | frame =>
      obtain ⟨name, -, isId⟩ := List.mem_filterMap.mp listed
      obtain ⟨codec, -, isId⟩ := Option.map_eq_some_iff.mp isId
      cases isId
      cases codec <;> rfl

theorem exists_id_of_names {κ : Type} {names : List String} {select : String → Option κ}
    {wireId : κ → UInt8} (some_name : names ≠ [])
    (known : ∀ name ∈ names, (select name).isSome) :
    ∃ id, some id ∈ names.filterMap fun name => (select name).map fun kind =>
    some (wireId kind) := by
  obtain ⟨name, listed⟩ := List.exists_mem_of_ne_nil names some_name
  obtain ⟨kind, isKind⟩ := Option.isSome_iff_exists.mp (known name listed)
  exact ⟨wireId kind, List.mem_filterMap.mpr ⟨name, listed, by rw [isKind]; rfl⟩⟩

theorem ProfilePrefs.Valid.exists_id {prefs : ProfilePrefs} (valid : prefs.Valid) {part : Part}
    (other : part ≠ .transport) : ∃ id, some id ∈ prefs.ids part := by
  cases part with
  | cipher => exact exists_id_of_names valid.some_cipher valid.ciphers
  | transport => exact absurd rfl other
  | fec => exact exists_id_of_names valid.some_fec valid.fecs
  | frame => exact exists_id_of_names valid.some_frame valid.frames

/-! ## The choice for one part -/

/-- What the client says about a part. -/
def offered (offer : Option ClientOffer) (part : Part) : List UInt8 :=
  (offer.map (·.idsFor part)).getD []

/-- The rule for one part. The marker for the handshake's envelope is no id: it is
    passed over wherever it stands. -/
inductive Chooses (prefs : ProfilePrefs) (offer : Option ClientOffer) (part : Part) :
    UInt8 → Prop where
  /-- The first preference of the server that the client offers. -/
  | preferred {id : UInt8} (said : offered offer part ≠ [])
      (first : FirstWith (fun c => ∃ id ∈ offered offer part, c = some id) (prefs.ids part)
        (some id)) :
      Chooses prefs offer part id
  /-- The first offer of the client that this build can run. -/
  | compatible {id : UInt8} (apart : ∀ id ∈ offered offer part, some id ∉ prefs.ids part)
      (first : FirstWith (fun id => (part.known id).isSome) (offered offer part) id) :
      Chooses prefs offer part id
  /-- The client leaves the part to the server. -/
  | unsaid {id : UInt8} (nothing : offered offer part = [])
      (first : FirstWith (fun c => c ≠ none) (prefs.ids part) (some id)) :
      Chooses prefs offer part id
  /-- The server lists the marker only. -/
  | marker (nothing : offered offer part = []) (isTransport : part = .transport)
      (only : ∀ c ∈ prefs.ids part, c = none) :
      Chooses prefs offer part TRANSPORT_SAME_AS_HANDSHAKE_ID

variable {prefs : ProfilePrefs} {offer : Option ClientOffer} {part : Part} {id : UInt8}

theorem pick_unsaid (nothing : offered offer part = []) :
    pick prefs offer part = .ok ((prefs.ids part).reduceOption.head?.getD part.terminal) := by
  rw [offered] at nothing
  simp only [pick, nothing, List.isEmpty_nil, if_true]

theorem pick_said (said : offered offer part ≠ []) :
    (∃ id, (prefs.ids part).reduceOption.find? (· ∈ offered offer part) = some id ∧
      pick prefs offer part = .ok id) ∨
    ((prefs.ids part).reduceOption.find? (· ∈ offered offer part) = none ∧
      ((∃ id, (offered offer part).find? (fun id => (part.known id).isSome) = some id ∧
      pick prefs offer part = .ok id) ∨
          ((offered offer part).find? (fun id => (part.known id).isSome) = none ∧
            ∃ e, pick prefs offer part = .error e))) := by
  have isSaid : ¬ (offered offer part).isEmpty := by simpa only [List.isEmpty_iff] using said
  rw [offered] at isSaid ⊢
  simp only [pick, if_neg isSaid]
  cases shared : (prefs.ids part).reduceOption.find?
    (· ∈ (offer.map (·.idsFor part)).getD []) with
  | some id => exact .inl ⟨id, rfl, rfl⟩
  | none =>
      refine .inr ⟨rfl, ?_⟩
      cases runs : ((offer.map (·.idsFor part)).getD []).find?
        (fun id => (part.known id).isSome) with
      | some id => exact .inl ⟨id, rfl, rfl⟩
      | none => exact .inr ⟨rfl, _, rfl⟩

theorem find?_shared_iff :
    (prefs.ids part).reduceOption.find? (· ∈ offered offer part) = some id ↔
      FirstWith (fun c => ∃ id ∈ offered offer part, c = some id) (prefs.ids part)
      (some id) := by
  rw [find?_reduceOption_iff]
  have same : (fun c : Option UInt8 => (c.any fun id => decide (id ∈ offered offer part)) =
    true) = fun c => ∃ id ∈ offered offer part, c = some id := by
    funext c
    cases c <;> simp
  rw [same]

theorem head?_candidates_iff :
    (prefs.ids part).reduceOption.head? = some id ↔ FirstWith (fun c => c ≠ none)
    (prefs.ids part) (some id) := by
  have first : (prefs.ids part).reduceOption.head? =
      (prefs.ids part).reduceOption.find? fun _ => true := by
    cases (prefs.ids part).reduceOption <;> rfl
  have same : (fun c : Option UInt8 => (c.any fun _ => true) = true) = fun c => c ≠ none := by
    funext c
    cases c <;> simp
  rw [first, find?_reduceOption_iff, same]

theorem not_firstWith_nil {α : Type} {p : α → Prop} {a : α} : ¬ FirstWith p [] a := by
  rintro ⟨-, before, after, isNil, -⟩
  simp at isNil

theorem head?_candidates_none_iff :
    (prefs.ids part).reduceOption.head? = none ↔ ∀ c ∈ prefs.ids part, c = none := by
  simp only [List.head?_eq_none_iff, reduceOption_eq, List.filterMap_eq_nil_iff, id_eq]

theorem pick_unsaid_ok_iff (valid : prefs.Valid) (nothing : offered offer part = []) :
    pick prefs offer part = .ok id ↔ Chooses prefs offer part id := by
  rw [pick_unsaid nothing]
  constructor
  · intro picked
    cases first : (prefs.ids part).reduceOption.head? with
    | some candidate =>
        rw [first] at picked
        cases picked
        exact .unsaid nothing (head?_candidates_iff.mp first)
    | none =>
        have only := head?_candidates_none_iff.mp first
        have isTransport : part = .transport := by
          by_contra other
          obtain ⟨candidate, listed⟩ := valid.exists_id other
          cases only _ listed
        rw [first] at picked
        cases picked
        subst isTransport
        exact .marker nothing rfl only
  · intro chosen
    cases chosen with
    | preferred said first => exact absurd nothing said
    | compatible apart first =>
        rw [nothing] at first
        exact absurd first not_firstWith_nil
    | unsaid _ first =>
        rw [head?_candidates_iff.mpr first]
        rfl
    | marker _ isTransport only =>
        rw [head?_candidates_none_iff.mpr only, isTransport]
        rfl

theorem pick_said_ok_iff (said : offered offer part ≠ []) :
    pick prefs offer part = .ok id ↔ Chooses prefs offer part id := by
  rcases @pick_said prefs _ _ said with ⟨candidate, shared, picked⟩ | ⟨apart, runs⟩
  · rw [picked]
    constructor
    · intro same
      cases same
      exact .preferred said (find?_shared_iff.mp shared)
    · intro chosen
      have first := find?_shared_iff.mp shared
      obtain ⟨candidate', isOffered, same⟩ := first.1
      cases same
      cases chosen with
      | preferred _ first' => rw [Option.some.inj (shared.symm.trans (find?_shared_iff.mpr first'))]
      | compatible apart _ => exact absurd first.mem (apart candidate isOffered)
      | unsaid nothing _ => exact absurd nothing said
      | marker nothing _ _ => exact absurd nothing said
  · have noneListed : ∀ id ∈ offered offer part, some id ∉ prefs.ids part := by
      intro id isOffered listed
      have candidate : id ∈ (prefs.ids part).reduceOption :=
        List.mem_filterMap.mpr ⟨some id, listed, rfl⟩
      have differs := List.find?_eq_none.mp apart id candidate
      simp [isOffered] at differs
    have chosen_iff : Chooses prefs offer part id ↔
        (offered offer part).find? (fun id => (part.known id).isSome) = some id := by
      rw [find?_eq_some_iff_firstWith]
      constructor
      · intro chosen
        cases chosen with
        | preferred _ first => cases apart.symm.trans (find?_shared_iff.mpr first)
        | compatible _ first => exact first
        | unsaid nothing _ => exact absurd nothing said
        | marker nothing _ _ => exact absurd nothing said
      · exact .compatible noneListed
    rw [chosen_iff]
    rcases runs with ⟨candidate, first, picked⟩ | ⟨nobody, e, failed⟩
    · rw [picked, first, Except.ok.injEq, Option.some.injEq]
    · simp [failed, nobody]

/-- A choice is made exactly by the rule. -/
theorem pick_ok_iff (valid : prefs.Valid) :
    pick prefs offer part = .ok id ↔ Chooses prefs offer part id := by
  by_cases nothing : offered offer part = []
  · exact pick_unsaid_ok_iff valid nothing
  · exact pick_said_ok_iff nothing

/-! ## The selection -/

namespace Selection

/-- A part of a selection that this build can run. -/
def Runs (sel : Selection) (part : Part) : Prop :=
  (part.known (sel.partId part)).isSome ∨
    (part = .transport ∧ sel.transport = TRANSPORT_SAME_AS_HANDSHAKE_ID)

theorem check_ok_iff {sel : Selection} : sel.check = .ok () ↔ ∀ part, sel.Runs part := by
  have every : (∀ part ∈ [Part.cipher, .transport, .fec, .frame], sel.Runs part) ↔ ∀ part,
    sel.Runs part := by
    constructor
    · intro runs part
      exact runs part (by cases part <;> simp)
    · exact fun runs part _ => runs part
  rw [← every]
  exact forM_check_ok_iff

theorem Runs.cipher {sel : Selection} (runs : sel.Runs .cipher) :
    ∃ kind, CipherKind.fromId sel.cipher = some kind := by
  rcases runs with known | ⟨other, -⟩
  · simpa [Part.known, partId, Option.isSome_iff_exists] using known
  · cases other

theorem Runs.fec {sel : Selection} (runs : sel.Runs .fec) :
    ∃ scheme, FecScheme.fromId sel.fec = some scheme := by
  rcases runs with known | ⟨other, -⟩
  · simpa [Part.known, partId, Option.isSome_iff_exists] using known
  · cases other

theorem Runs.frame {sel : Selection} (runs : sel.Runs .frame) :
    ∃ codec, frameCodecById sel.frame = .ok codec := by
  rcases runs with known | ⟨other, -⟩
  · simp only [Part.known, partId] at known
    cases found : frameCodecById sel.frame with
    | error e => simp [found, Except.toOption] at known
    | ok codec => exact ⟨codec, rfl⟩
  · cases other

theorem Runs.transport {sel : Selection} (runs : sel.Runs .transport)
    (own : sel.reusesHandshakeTransport = false) :
    ∃ transport, buildTransportId sel.transport sel.transportTag = some transport := by
  rcases runs with known | ⟨-, marker⟩
  · simp only [Part.known, partId, transportName] at known
    by_cases isPlain : sel.transport = TRANSPORT_PLAIN
    · exact ⟨_, if_pos isPlain⟩
    · by_cases isTagged : sel.transport = TRANSPORT_TAGGED
      · exact ⟨_, (if_neg isPlain).trans (if_pos isTagged)⟩
      · simp [isPlain, isTagged] at known
  · rw [reusesHandshakeTransport, marker] at own
    cases own

theorem buildable_of_check {sel : Selection} (runnable : sel.check = .ok ())
    (envelope : Transport) :
    ∃ profile, ResolvedProfile.withHandshakeTransport sel envelope = .ok profile ∧
    profile.selection = sel := by
  have runs := check_ok_iff.mp runnable
  obtain ⟨kind, isCipher⟩ := (runs .cipher).cipher
  obtain ⟨scheme, isFec⟩ := (runs .fec).fec
  obtain ⟨codec, isFrame⟩ := (runs .frame).frame
  have parts : ∀ transport, ResolvedProfile.withTransport sel transport =
    .ok ⟨kind, transport, scheme, codec, sel⟩ := by
    intro transport
    simp only [ResolvedProfile.withTransport, isCipher, isFec, isFrame]
  cases own : sel.reusesHandshakeTransport with
  | true => exact ⟨⟨kind, envelope, scheme, codec, sel⟩,
      by simp only [ResolvedProfile.withHandshakeTransport, own, if_true, parts], rfl⟩
  | false =>
      obtain ⟨transport, built⟩ := (runs .transport).transport own
      refine ⟨⟨kind, transport, scheme, codec, sel⟩, ?_, rfl⟩
      simp only [ResolvedProfile.withHandshakeTransport, own, Bool.false_eq_true, if_false,
        ResolvedProfile.fromSelection, runnable, bind, Except.bind, isCipher, built, parts]

end Selection

theorem Chooses.runs {sel : Selection} (chosen : Chooses prefs offer part (sel.partId part)) :
    sel.Runs part := by
  generalize isId : sel.partId part = id at chosen
  cases chosen with
  | preferred _ first => exact .inl (isId ▸ ProfilePrefs.known_of_mem_ids first.mem)
  | compatible _ first => exact .inl (isId ▸ first.1)
  | unsaid _ first => exact .inl (isId ▸ ProfilePrefs.known_of_mem_ids first.mem)
  | marker _ isTransport _ =>
      subst isTransport
      exact .inr ⟨rfl, isId⟩

theorem negotiate_ok_iff (valid : prefs.Valid) {tag : UInt8 × UInt8} {sel : Selection} :
    negotiate prefs offer tag = .ok sel ↔
      sel.transportTag = tag ∧ ∀ part, Chooses prefs offer part (sel.partId part) := by
  constructor
  · intro negotiated
    obtain ⟨cipher, pickedCipher, negotiated⟩ := bind_eq_ok_iff.mp negotiated
    obtain ⟨transport, pickedTransport, negotiated⟩ := bind_eq_ok_iff.mp negotiated
    obtain ⟨fec, pickedFec, negotiated⟩ := bind_eq_ok_iff.mp negotiated
    obtain ⟨frame, pickedFrame, negotiated⟩ := bind_eq_ok_iff.mp negotiated
    obtain ⟨⟨⟩, -, negotiated⟩ := bind_eq_ok_iff.mp negotiated
    cases negotiated
    refine ⟨rfl, fun part => ?_⟩
    cases part with
    | cipher => exact (pick_ok_iff valid).mp pickedCipher
    | transport => exact (pick_ok_iff valid).mp pickedTransport
    | fec => exact (pick_ok_iff valid).mp pickedFec
    | frame => exact (pick_ok_iff valid).mp pickedFrame
  · rintro ⟨rfl, chosen⟩
    have runnable : sel.check = .ok () := Selection.check_ok_iff.mpr fun part => (chosen part).runs
    refine bind_eq_ok_iff.mpr ⟨_, (pick_ok_iff valid).mpr (chosen .cipher), ?_⟩
    refine bind_eq_ok_iff.mpr ⟨_, (pick_ok_iff valid).mpr (chosen .transport), ?_⟩
    refine bind_eq_ok_iff.mpr ⟨_, (pick_ok_iff valid).mpr (chosen .fec), ?_⟩
    refine bind_eq_ok_iff.mpr ⟨_, (pick_ok_iff valid).mpr (chosen .frame), ?_⟩
    exact bind_eq_ok_iff.mpr ⟨(), runnable, rfl⟩

/-- A negotiation fails exactly for a part without a choice. -/
theorem negotiate_error_iff (valid : prefs.Valid) {tag : UInt8 × UInt8} :
    (∃ e, negotiate prefs offer tag = .error e) ↔ ∃ part, ∀ id,
    ¬ Chooses prefs offer part id := by
  constructor
  · rintro ⟨e, failed⟩
    by_contra every
    simp only [not_exists, not_forall, not_not] at every
    choose choice chosen using every
    have negotiated : negotiate prefs offer tag =
      .ok ⟨choice .cipher, choice .transport, choice .fec, tag, choice .frame⟩ :=
      (negotiate_ok_iff valid).mpr ⟨rfl, fun part => by cases part <;> exact chosen _⟩
    cases failed.symm.trans negotiated
  · rintro ⟨part, nobody⟩
    cases negotiated : negotiate prefs offer tag with
    | error e => exact ⟨e, rfl⟩
    | ok sel => exact absurd (((negotiate_ok_iff valid).mp negotiated).2 part) (nobody _)

/-- A negotiation over the preferences of a configuration chooses for each part by the
    rule, fails exactly for a part without a choice, and ends in a selection that both
    sides can build over their envelope of the handshake. -/
theorem negotiate_chooses {debug : String → String} {ciphers transports fecs frames : List String}
    (resolved : ProfilePrefs.resolve debug ciphers transports fecs frames = .ok prefs)
    (offer : Option ClientOffer) (tag : UInt8 × UInt8) :
    (∀ sel, negotiate prefs offer tag = .ok sel ↔
      sel.transportTag = tag ∧ ∀ part, Chooses prefs offer part (sel.partId part)) ∧
    ((∃ e, negotiate prefs offer tag = .error e) ↔ ∃ part, ∀ id,
      ¬ Chooses prefs offer part id) ∧
    ∀ sel, negotiate prefs offer tag = .ok sel → sel.check = .ok () ∧
      ∀ envelope, ∃ profile, ResolvedProfile.withHandshakeTransport sel envelope =
      .ok profile ∧ profile.selection = sel := by
  have valid := ProfilePrefs.valid_of_resolve resolved
  refine ⟨fun sel => negotiate_ok_iff valid, negotiate_error_iff valid,
    fun sel negotiated => ?_⟩
  have chosen := ((negotiate_ok_iff valid).mp negotiated).2
  have runnable : sel.check = .ok () := Selection.check_ok_iff.mpr fun part => (chosen part).runs
  exact ⟨runnable, Selection.buildable_of_check runnable⟩

/-- The default preferences and a client that offers the second codec only. -/
theorem second_codec_negotiated :
    let offer : ClientOffer := ⟨[1], [], [1], [FRAME_V2_TLV]⟩
    let sel : Selection := { Selection.defaults with frame := FRAME_V2_TLV }
    ∃ prefs, ProfilePrefs.resolve String.quote [] [] [] [] = .ok prefs ∧
      negotiate prefs (some offer) DEFAULT_TAG = .ok sel ∧ sel.check = .ok () ∧
      Chooses prefs (some offer) .frame FRAME_V2_TLV := by
  intro offer sel
  let prefs : ProfilePrefs :=
    ⟨[DEFAULT_CIPHER], [TRANSPORT_SAME_AS_HANDSHAKE], [DEFAULT_FEC_SCHEME],
      [DEFAULT_FRAME_CODEC]⟩
  have resolved : ProfilePrefs.resolve String.quote [] [] [] [] = .ok prefs := rfl
  have negotiated : negotiate prefs (some offer) DEFAULT_TAG = .ok sel := rfl
  obtain ⟨chooses, -, runs⟩ := negotiate_chooses resolved (some offer) DEFAULT_TAG
  exact ⟨prefs, resolved, negotiated, (runs sel negotiated).1,
    ((chooses sel).mp negotiated).2 .frame⟩

/-- The marker stands first among the server's preferences, the client says nothing,
    and the marker is not what is chosen. -/
theorem first_marker_passed_over :
    ∃ prefs sel, ProfilePrefs.resolve String.quote [] [TRANSPORT_SAME_AS_HANDSHAKE, "tagged"] []
    [] = .ok prefs ∧ (prefs.ids .transport).head? = some none ∧
    negotiate prefs none DEFAULT_TAG = .ok sel ∧ sel.transport = TRANSPORT_TAGGED ∧
    sel.reusesHandshakeTransport = false :=
  ⟨⟨[DEFAULT_CIPHER], [TRANSPORT_SAME_AS_HANDSHAKE, "tagged"], [DEFAULT_FEC_SCHEME],
    [DEFAULT_FRAME_CODEC]⟩, { Selection.defaults with transport := TRANSPORT_TAGGED }, rfl, rfl,
    rfl, rfl, rfl⟩

end Rustnies
