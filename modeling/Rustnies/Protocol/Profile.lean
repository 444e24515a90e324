import Rustnies.Fec.Scheme
import Rustnies.Protocol.Frame
import Rustnies.Transport

/-! # Profiles and their negotiation

`protocol/profile.rs` and the registries it asks. The client may offer what it can
run; the server walks its own preferences, falls back to the client's list, and
answers with one id per part. Offers and selections are lists of wire ids.
-/

namespace Rustnies

/-! ## Names -/

/-- `char::is_whitespace`. -/
def isWhitespace (c : Char) : Bool :=
  (0x09 ≤ c.val && c.val ≤ 0x0D) || c.val == 0x20 || c.val == 0x85 || c.val == 0xA0 ||
  c.val == 0x1680 || (0x2000 ≤ c.val && c.val ≤ 0x200A) || c.val == 0x2028 || c.val == 0x2029 ||
  c.val == 0x202F || c.val == 0x205F || c.val == 0x3000

/-- `str::trim`. -/
def trim (s : String) : String :=
  String.ofList ((s.toList.dropWhile isWhitespace).reverse.dropWhile isWhitespace).reverse

inductive CipherKind where
  | chaCha20Poly1305
  deriving Repr, DecidableEq

def CIPHER_CHACHA20POLY1305 : UInt8 := 1
def DEFAULT_CIPHER : String := "chacha20poly1305"
def DEFAULT_TRANSPORT : String := "plain"
def TRANSPORT_SAME_AS_HANDSHAKE : String := "same-as-handshake"
def DEFAULT_FEC_SCHEME : String := "reed-solomon"
def FEC_NONE : String := "none"
def DEFAULT_FRAME_CODEC : String := "v1-fixed"

namespace CipherKind

def name : CipherKind → String
  | .chaCha20Poly1305 => DEFAULT_CIPHER

def id : CipherKind → UInt8
  | .chaCha20Poly1305 => CIPHER_CHACHA20POLY1305

def fromId (id : UInt8) : Option CipherKind :=
  if id = CIPHER_CHACHA20POLY1305 then some .chaCha20Poly1305 else none

/-- `rustnies/aead/chacha20poly1305`. -/
def keySchedule : CipherKind → Bytes
  | .chaCha20Poly1305 =>
      [0x72, 0x75, 0x73, 0x74, 0x6E, 0x69, 0x65, 0x73, 0x2F, 0x61, 0x65, 0x61, 0x64, 0x2F, 0x63,
       0x68, 0x61, 0x63, 0x68, 0x61, 0x32, 0x30, 0x70, 0x6F, 0x6C, 0x79, 0x31, 0x33, 0x30, 0x35]

end CipherKind

def selectCipher (name : String) : Option CipherKind :=
  if trim name = "" ∨ trim name = DEFAULT_CIPHER then some .chaCha20Poly1305 else none

def transportId (name : String) : Option UInt8 :=
  if trim name = "" ∨ trim name = DEFAULT_TRANSPORT then some TRANSPORT_PLAIN
  else if trim name = "tagged" then some TRANSPORT_TAGGED
  else none

def transportName (id : UInt8) : Option String :=
  if id = TRANSPORT_PLAIN then some DEFAULT_TRANSPORT
  else if id = TRANSPORT_TAGGED then some "tagged"
  else none

def FecScheme.name : FecScheme → String
  | .reedSolomon => DEFAULT_FEC_SCHEME
  | .noFec => FEC_NONE

def selectFecScheme (name : String) : Option FecScheme :=
  if trim name = "" ∨ trim name = DEFAULT_FEC_SCHEME then some .reedSolomon
  else if trim name = FEC_NONE ∨ trim name = "off" ∨ trim name = "disabled" then some .noFec
  else none

/-! ## Parts -/

inductive Part where
  | cipher
  | transport
  | fec
  | frame
  deriving Repr, DecidableEq

def NEGOTIATION_VERSION : UInt8 := 1
def MAX_OFFER_ALTERNATIVES : Nat := 32
def SELECTION_LEGACY_LEN : Nat := 6
def TRANSPORT_SAME_AS_HANDSHAKE_ID : UInt8 := 0

namespace Part

/-- The name of an id that this build implements. -/
def known : Part → UInt8 → Option String
  | .cipher, id => (CipherKind.fromId id).map CipherKind.name
  | .transport, id => transportName id
  | .fec, id => (FecScheme.fromId id).map FecScheme.name
  | .frame, id => (frameCodecById id).toOption.map FrameCodec.name

end Part

def partName (part : Part) (id : UInt8) : String := (part.known id).getD s!"id#{id}"

inductive ProfileError where
  | unsupportedVersion (version : UInt8)
  | malformed (why : String)
  | unsupportedPart (part : Part) (id : UInt8)
  | noCommonPart (part : Part) (server client : List String)
  | config (why : String)
  deriving Repr, DecidableEq

theorem bind_eq_ok_iff {ε α γ : Type} {first : Except ε α} {second : α → Except ε γ}
    {result : γ} :
    first >>= second = .ok result ↔ ∃ a, first = .ok a ∧ second a = .ok result := by
  cases first with
  | error e => simp [bind, Except.bind]
  | ok a => simp [bind, Except.bind]

/-! ## The offer -/

structure ClientOffer where
  cipherIds : List UInt8
  transportIds : List UInt8
  fecIds : List UInt8
  frameIds : List UInt8
  deriving Repr, DecidableEq

/-- `take_list`: a length and that many ids, and what follows them. -/
def takeList : Bytes → Except ProfileError (List UInt8 × Bytes)
  | [] => .error (.malformed "truncated list length")
  | n :: rest =>
      if MAX_OFFER_ALTERNATIVES < n.toNat then .error (.malformed "alternative list too long")
      else if rest.length < n.toNat then .error (.malformed "truncated list body")
      else .ok (rest.take n.toNat, rest.drop n.toNat)

namespace ClientOffer

def idsFor (offer : ClientOffer) : Part → List UInt8
  | .cipher => offer.cipherIds
  | .transport => offer.transportIds
  | .fec => offer.fecIds
  | .frame => offer.frameIds

def namesFor (offer : ClientOffer) (part : Part) : List String :=
  (offer.idsFor part).map (partName part)

def encodeList (ids : List UInt8) : Bytes :=
  let n := min ids.length MAX_OFFER_ALTERNATIVES
  UInt8.ofNat n :: ids.take n

def encode (offer : ClientOffer) : Bytes :=
  NEGOTIATION_VERSION :: (encodeList offer.cipherIds ++ encodeList offer.transportIds ++
    encodeList offer.fecIds ++ encodeList offer.frameIds)

/-- An empty payload is no offer; an absent frame list is the first codec. -/
def decode : Bytes → Except ProfileError (Option ClientOffer)
  | [] => .ok none
  | version :: rest =>
      if version ≠ NEGOTIATION_VERSION then .error (.unsupportedVersion version)
      else do
        let (cipherIds, rest) ← takeList rest
        let (transportIds, rest) ← takeList rest
        let (fecIds, rest) ← takeList rest
        if rest.isEmpty then return some ⟨cipherIds, transportIds, fecIds, [FRAME_V1_FIXED]⟩
        else
          let (frameIds, _) ← takeList rest
          return some ⟨cipherIds, transportIds, fecIds, frameIds⟩

end ClientOffer

/-! ## The selection -/

structure Selection where
  cipher : UInt8
  transport : UInt8
  fec : UInt8
  transportTag : UInt8 × UInt8
  frame : UInt8
  deriving Repr, DecidableEq

namespace Selection

def defaults : Selection where
  cipher := CipherKind.chaCha20Poly1305.id
  transport := TRANSPORT_SAME_AS_HANDSHAKE_ID
  fec := FecScheme.reedSolomon.id
  transportTag := DEFAULT_TAG
  frame := FRAME_V1_FIXED

def reusesHandshakeTransport (sel : Selection) : Bool :=
  sel.transport == TRANSPORT_SAME_AS_HANDSHAKE_ID

def encode (sel : Selection) : Bytes :=
  [NEGOTIATION_VERSION, sel.cipher, sel.transport, sel.fec, sel.transportTag.1, sel.transportTag.2,
   sel.frame]

def decode (payload : Bytes) : Except ProfileError Selection :=
  if payload.isEmpty then .ok defaults
  else if byteAt payload 0 ≠ NEGOTIATION_VERSION
    then .error (.unsupportedVersion (byteAt payload 0))
  else if payload.length < SELECTION_LEGACY_LEN then
    .error (.malformed "selection shorter than 6 bytes")
  else .ok {
    cipher := byteAt payload 1
    transport := byteAt payload 2
    fec := byteAt payload 3
    transportTag := (byteAt payload 4, byteAt payload 5)
    frame := payload[6]?.getD FRAME_V1_FIXED }

def partId (sel : Selection) : Part → UInt8
  | .cipher => sel.cipher
  | .transport => sel.transport
  | .fec => sel.fec
  | .frame => sel.frame

/-- The first part that this build cannot run is reported. -/
def check (sel : Selection) : Except ProfileError Unit :=
  [Part.cipher, .transport, .fec, .frame].forM fun part =>
    if (part.known (sel.partId part)).isSome ∨
        (part = .transport ∧ sel.transport = TRANSPORT_SAME_AS_HANDSHAKE_ID) then .ok ()
    else .error (.unsupportedPart part (sel.partId part))

/-- The key schedule of the selected cipher, or the default's. -/
def suiteSchedule (sel : Selection) : Bytes :=
  ((CipherKind.fromId sel.cipher).getD .chaCha20Poly1305).keySchedule

end Selection

/-! ## Preferences and the choice -/

/-- Config names, most preferred first. -/
structure ProfilePrefs where
  ciphers : List String
  transports : List String
  fecs : List String
  frames : List String
  deriving Repr, DecidableEq

/-- A list from the configuration, or its default. -/
def nonEmptyOr (list : List String) (default : String) : List String :=
  if list.isEmpty then [default] else list

namespace ProfilePrefs

/-- Checks every configured name; `debug` is how the formatter quotes one in an error. -/
def resolve (debug : String → String) (ciphers transports fecs frames : List String) :
    Except ProfileError ProfilePrefs := do
  let ciphers := nonEmptyOr ciphers DEFAULT_CIPHER
  ciphers.forM fun name =>
    if (selectCipher name).isSome then .ok ()
    else .error (.config s!"unknown aead cipher {debug (trim name)}; supported: chacha20poly1305")
  let transports := nonEmptyOr transports TRANSPORT_SAME_AS_HANDSHAKE
  transports.forM fun name =>
    if trim name = TRANSPORT_SAME_AS_HANDSHAKE ∨ (transportId name).isSome then .ok ()
    else .error (.config s!"unknown transport {debug name} (supported: plain, tagged)")
  let fecs := nonEmptyOr fecs DEFAULT_FEC_SCHEME
  fecs.forM fun name =>
    if (selectFecScheme name).isSome then .ok ()
    else .error (.config s!"unknown fec scheme {debug (trim name)}; supported: reed-solomon, none")
  let frames := nonEmptyOr frames DEFAULT_FRAME_CODEC
  frames.forM fun name =>
    if (buildFrameCodec name).toOption.isSome then .ok ()
    else .error (.config s!"unknown frame codec {debug name}")
  return ⟨ciphers, transports, fecs, frames⟩

/-- The candidate ids of a part; `none` is the marker for the handshake's envelope. -/
def ids (prefs : ProfilePrefs) : Part → List (Option UInt8)
  | .cipher => prefs.ciphers.filterMap fun n => (selectCipher n).map fun k => some k.id
  | .transport => prefs.transports.map fun n =>
      if trim n = TRANSPORT_SAME_AS_HANDSHAKE then none else transportId n
  | .fec => prefs.fecs.filterMap fun n => (selectFecScheme n).map fun k => some k.id
  | .frame =>
      prefs.frames.filterMap fun n => (buildFrameCodec n).toOption.map fun c => some c.wireId

def names (prefs : ProfilePrefs) : Part → List String
  | .cipher => prefs.ciphers
  | .transport => prefs.transports.map fun n =>
      if trim n = TRANSPORT_SAME_AS_HANDSHAKE then TRANSPORT_SAME_AS_HANDSHAKE
      else partName .transport ((transportId n).getD 0)
  | .fec => prefs.fecs
  | .frame => prefs.frames

end ProfilePrefs

/-- What a part falls back to when the server lists no candidate. -/
def Part.terminal : Part → UInt8
  | .cipher => Selection.defaults.cipher
  | .transport => TRANSPORT_SAME_AS_HANDSHAKE_ID
  | .fec => Selection.defaults.fec
  | .frame => Selection.defaults.frame

/-- The server's order first, then the client's among what this build can run. -/
def pick (prefs : ProfilePrefs) (offer : Option ClientOffer) (part : Part) :
    Except ProfileError UInt8 :=
  let candidates := (prefs.ids part).reduceOption
  let offerIds := (offer.map (·.idsFor part)).getD []
  if offerIds.isEmpty then .ok (candidates.head?.getD part.terminal)
  else
    match candidates.find? (· ∈ offerIds) with
    | some id => .ok id
    | none =>
        match offerIds.find? fun id => (part.known id).isSome with
        | some id => .ok id
        | none =>
            .error (.noCommonPart part (prefs.names part) ((offer.map (·.namesFor part)).getD []))

def negotiate (prefs : ProfilePrefs) (offer : Option ClientOffer) (dataTag : UInt8 × UInt8) :
    Except ProfileError Selection := do
  let cipher ← pick prefs offer .cipher
  let transport ← pick prefs offer .transport
  let fec ← pick prefs offer .fec
  let frame ← pick prefs offer .frame
  let sel : Selection := ⟨cipher, transport, fec, dataTag, frame⟩
  sel.check
  return sel

/-- Everything this side can run; the marker for the handshake's envelope is no id. -/
def ClientOffer.fromPrefs (prefs : ProfilePrefs) : ClientOffer where
  cipherIds := (prefs.ids .cipher).reduceOption
  transportIds := (prefs.ids .transport).reduceOption
  fecIds := (prefs.ids .fec).reduceOption
  frameIds := (prefs.ids .frame).reduceOption

/-! ## Local and resolved profiles -/

/-- What a side knows before the handshake; the congestion controller is not part of
    the model of the handshake. -/
structure LocalProfile where
  kexName : String
  prefs : ProfilePrefs
  handshakeTransport : Transport
  dataTag : UInt8 × UInt8
  propose : Bool

def LocalProfile.offer (profile : LocalProfile) : Option ClientOffer :=
  if profile.propose then some (.fromPrefs profile.prefs) else none

/-- The implementations a session runs. -/
structure ResolvedProfile where
  cipher : CipherKind
  transport : Transport
  fec : FecScheme
  codec : FrameCodec
  selection : Selection
  deriving Repr, DecidableEq

namespace ResolvedProfile

/-- The parts of a profile over the given envelope. -/
def withTransport (sel : Selection) (transport : Transport) : Except ProfileError ResolvedProfile :=
  match CipherKind.fromId sel.cipher, FecScheme.fromId sel.fec, frameCodecById sel.frame with
  | none, _, _ => .error (.unsupportedPart .cipher sel.cipher)
  | some _, none, _ => .error (.unsupportedPart .fec sel.fec)
  | some _, some _, .error _ => .error (.unsupportedPart .frame sel.frame)
  | some cipher, some fec, .ok codec => .ok ⟨cipher, transport, fec, codec, sel⟩

def fromSelection (sel : Selection) : Except ProfileError ResolvedProfile := do
  sel.check
  match CipherKind.fromId sel.cipher, buildTransportId sel.transport sel.transportTag with
  | none, _ => .error (.unsupportedPart .cipher sel.cipher)
  | some _, none => .error (.unsupportedPart .transport sel.transport)
  | some _, some transport => withTransport sel transport

def withHandshakeTransport (sel : Selection) (handshakeTransport : Transport) :
    Except ProfileError ResolvedProfile :=
  if sel.reusesHandshakeTransport then withTransport sel handshakeTransport else fromSelection sel

end ResolvedProfile

end Rustnies
