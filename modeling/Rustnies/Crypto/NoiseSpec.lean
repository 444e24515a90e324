import Rustnies.Crypto.Noise

/-! # The symmetric state of the Noise specification

The specification describes a handshake by the operations it makes on one symmetric
state. The code keeps that state in four fields of its own; its operations are
compared with those of the specification one by one, and the messages of the code
are then written in the words of the specification.
-/

namespace Rustnies

variable {β : Type} [Byte β]

/-- What the handshake relies on of the primitives: a public key has 32 bytes, both
    sides of an exchange compute the same secret, and whatever is sealed opens again
    and is longer by the tag. -/
structure NoisePrimitives.Lawful (prim : NoisePrimitives β) : Prop where
  publicKey_length : ∀ secret, (prim.publicKey secret).length = 32
  diffieHellman_comm : ∀ a b, prim.diffieHellman a (prim.publicKey b) = prim.diffieHellman b
    (prim.publicKey a)
  seals : ∀ key nonce ad message, ∃ c, prim.aead.encrypt key nonce ad message = some c ∧
    prim.aead.decrypt key nonce ad c = some message ∧ c.length = message.length + TAG_LEN

theorem NoisePrimitives.summing_lawful : NoisePrimitives.summing.Lawful where
  publicKey_length secret := by simp [summing]
  diffieHellman_comm a b := List.zipWith_comm_of_comm UInt8.add_comm
  seals key nonce ad message := by
    have tagged : ((key ++ List.replicate TAG_LEN 0).take TAG_LEN).length = TAG_LEN := by simp
    refine ⟨message ++ (key ++ List.replicate TAG_LEN 0).take TAG_LEN, rfl, ?_,
      by rw [List.length_append, tagged]⟩
    simp only [summing, List.length_append, tagged, Nat.add_sub_cancel, List.drop_left,
      List.take_left, ne_eq, not_true_eq_false, if_false]
    exact if_neg (by omega)

/-- `SymmetricState` with its `CipherState`. -/
structure SymmetricState (β : Type) where
  ck : List β
  h : List β
  k : Option (List β)
  n : Nat

namespace SymmetricState

variable (prim : NoisePrimitives β)

/-- `InitializeSymmetric`: a name of at most 32 bytes is padded, a longer one hashed. -/
def initializeSymmetric (name : List β) : SymmetricState β :=
  let h := if name.length ≤ 32 then name ++ lits (List.replicate (32 - name.length) 0)
    else prim.sha256 name
  { ck := h, h := h, k := none, n := 0 }

def mixHash (ss : SymmetricState β) (data : List β) : SymmetricState β :=
  { ss with h := prim.sha256 (ss.h ++ data) }

def mixKey (ss : SymmetricState β) (input : List β) : SymmetricState β :=
  { ss with
    ck := (prim.hkdf ss.ck input [] 64).take 32
    k := some ((prim.hkdf ss.ck input [] 64).drop 32)
    n := 0 }

/-- `EncryptAndHash`: without a key the plaintext is sent as it is. -/
def encryptAndHash (ss : SymmetricState β) (plaintext : List β) :
    Option (List β × SymmetricState β) :=
  match ss.k with
  | none => some (plaintext, ss.mixHash prim plaintext)
  | some k =>
      match prim.aead.encrypt k (NoiseHandshake.noiseNonce ss.n) ss.h plaintext with
      | none => none
      | some c => some (c, { ss with n := ss.n + 1 }.mixHash prim c)

def decryptAndHash (ss : SymmetricState β) (ciphertext : List β) :
    Option (List β × SymmetricState β) :=
  match ss.k with
  | none => some (ciphertext, ss.mixHash prim ciphertext)
  | some k =>
      match prim.aead.decrypt k (NoiseHandshake.noiseNonce ss.n) ss.h ciphertext with
      | none => none
      | some p => some (p, { ss with n := ss.n + 1 }.mixHash prim ciphertext)

/-- The payload of message 1 as the code seals it: not at all when it is empty. -/
def sealOffer (ss : SymmetricState β) (offer : List β) : Option (List β × SymmetricState β) :=
  if offer.isEmpty then some ([], ss) else ss.encryptAndHash prim offer

def openOffer (ss : SymmetricState β) (trailing : List β) :
    Option (List β × SymmetricState β) :=
  if trailing.isEmpty then some ([], ss) else ss.decryptAndHash prim trailing

variable {prim}

theorem seals (lawful : prim.Lawful) (ss : SymmetricState β) (input plaintext : List β) :
    ∃ c after, (ss.mixKey prim input).encryptAndHash prim plaintext = some (c, after) ∧
      (ss.mixKey prim input).decryptAndHash prim c = some (plaintext, after) ∧
      c.length = plaintext.length + TAG_LEN := by
  obtain ⟨c, sealed, opened, long⟩ := lawful.seals ((prim.hkdf ss.ck input [] 64).drop 32)
    (NoiseHandshake.noiseNonce 0) ss.h plaintext
  refine ⟨c, { ss.mixKey prim input with n := 1 }.mixHash prim c, ?_, ?_, long⟩
  · simp only [encryptAndHash, mixKey, sealed]
  · simp only [decryptAndHash, mixKey, opened]

theorem seals_offer (lawful : prim.Lawful) (ss : SymmetricState β) (input offer : List β) :
    ∃ c after, (ss.mixKey prim input).sealOffer prim offer = some (c, after) ∧
      (ss.mixKey prim input).openOffer prim c = some (offer, after) := by
  cases offer with
  | nil => exact ⟨[], _, rfl, rfl⟩
  | cons b offer =>
      obtain ⟨c, after, sealed, opened, long⟩ := seals lawful ss input (b :: offer)
      have nonempty : c.isEmpty = false := by
        cases c with
        | nil =>
            simp only [List.length_nil, List.length_cons] at long
            omega
        | cons => rfl
      refine ⟨c, after, sealed, ?_⟩
      rw [openOffer, nonempty]
      exact opened

end SymmetricState

/-! ## The state of the code -/

namespace NoiseHandshake

variable {prim : NoisePrimitives β}

/-- The four fields of the code that make the symmetric state. -/
def symmetric (s : NoiseHandshake β) : SymmetricState β := ⟨s.ck, s.h, s.k, s.n⟩

def setSymmetric (s : NoiseHandshake β) (ss : SymmetricState β) : NoiseHandshake β :=
  { s with ck := ss.ck, h := ss.h, k := ss.k, n := ss.n }

omit [Byte β] in
theorem mixHash_localKeys (s : NoiseHandshake β) (data : List β) :
    (s.mixHash prim data).localKeys = s.localKeys := rfl

omit [Byte β] in
theorem mixKey_localKeys (s : NoiseHandshake β) (input : List β) :
    (s.mixKey prim input).localKeys = s.localKeys := rfl

omit [Byte β] in
theorem setSymmetric_localKeys (s : NoiseHandshake β) (ss : SymmetricState β) :
    (s.setSymmetric ss).localKeys = s.localKeys := rfl

variable {s : NoiseHandshake β} {ss ss₁ ss₂ : SymmetricState β}

theorem encryptAndHash_eq {input plaintext c : List β}
    (sealed : (ss.mixKey prim input).encryptAndHash prim plaintext = some (c, ss₁)) :
    (s.setSymmetric (ss.mixKey prim input)).encryptAndHash prim plaintext =
    .ok (c, s.setSymmetric ss₁) := by
  simp only [SymmetricState.encryptAndHash, SymmetricState.mixKey] at sealed
  simp only [encryptAndHash, setSymmetric, SymmetricState.mixKey]
  cases encrypted : prim.aead.encrypt ((prim.hkdf ss.ck input [] 64).drop 32) (noiseNonce 0) ss.h
    plaintext with
  | none =>
      rw [encrypted] at sealed
      cases sealed
  | some c' =>
      rw [encrypted] at sealed
      cases sealed
      rfl

theorem decryptAndHash_eq {input plaintext c : List β}
    (opened : (ss.mixKey prim input).decryptAndHash prim c = some (plaintext, ss₁)) :
    (s.setSymmetric (ss.mixKey prim input)).decryptAndHash prim c =
    .ok (plaintext, s.setSymmetric ss₁) := by
  simp only [SymmetricState.decryptAndHash, SymmetricState.mixKey] at opened
  simp only [decryptAndHash, setSymmetric, SymmetricState.mixKey]
  cases decrypted : prim.aead.decrypt ((prim.hkdf ss.ck input [] 64).drop 32)
    (noiseNonce 0) ss.h c with
  | none =>
      rw [decrypted] at opened
      cases opened
  | some plaintext' =>
      rw [decrypted] at opened
      cases opened
      rfl

/-! ## The messages of the code, in the words of the specification -/

theorem writeMessage1_eq {ephemeral offer rs sEnc offerEnc : List β} (role : s.role = .initiator)
    (known : s.peerStatic = some rs)
    (static : ((s.symmetric.mixHash prim (prim.publicKey ephemeral)).mixKey prim
      (prim.diffieHellman ephemeral rs)).encryptAndHash prim s.localKeys.publicKey =
      some (sEnc, ss₁))
    (offered : (ss₁.mixKey prim (prim.diffieHellman s.localKeys.secret rs)).sealOffer prim offer =
      some (offerEnc, ss₂)) :
    s.writeMessage1 prim ephemeral offer =
      .ok (prim.publicKey ephemeral ++ sEnc ++ offerEnc,
        { s.setSymmetric ss₂ with localEph := some ephemeral }) := by
  have first : ((s.mixHash prim (prim.publicKey ephemeral)).mixKey prim
      (prim.diffieHellman ephemeral rs)).encryptAndHash prim s.localKeys.publicKey =
        .ok (sEnc, s.setSymmetric ss₁) := encryptAndHash_eq static
  rw [writeMessage1, if_neg (fun other => other role)]
  simp only [known, mixKey_localKeys, mixHash_localKeys, first, bind, Except.bind,
    setSymmetric_localKeys]
  cases offer with
  | nil =>
      cases offered
      simp only [List.append_nil]
      rfl
  | cons b offer =>
      have second :
        ((s.setSymmetric ss₁).mixKey prim
        (prim.diffieHellman s.localKeys.secret rs)).encryptAndHash prim (b :: offer) =
        .ok (offerEnc, s.setSymmetric ss₂) := encryptAndHash_eq offered
      simp only [List.isEmpty_cons, Bool.false_eq_true, if_false, second]
      rfl

theorem readMessage1_eq {e sEnc offerEnc sPub offer : List β} (role : s.role = .responder)
    (ephemeral : e.length = 32) (token : sEnc.length = 32 + TAG_LEN) (short : sPub.length = 32)
    (static : ((s.symmetric.mixHash prim e).mixKey prim
      (prim.diffieHellman s.localKeys.secret e)).decryptAndHash prim sEnc = some (sPub, ss₁))
    (offered : (ss₁.mixKey prim (prim.diffieHellman s.localKeys.secret sPub)).openOffer prim
      offerEnc = some (offer, ss₂)) :
    s.readMessage1 prim (e ++ sEnc ++ offerEnc) =
      .ok ((sPub, offer),
        { s.setSymmetric ss₂ with peerEph := some e, peerStatic := some sPub }) := by
  have front : (e ++ sEnc ++ offerEnc).take 32 = e := by
    rw [List.append_assoc, ← ephemeral, List.take_left]
  have rest : (e ++ sEnc ++ offerEnc).drop 32 = sEnc ++ offerEnc := by
    rw [List.append_assoc, ← ephemeral, List.drop_left]
  have long : ¬ (e ++ sEnc ++ offerEnc).length < 32 + 32 + TAG_LEN := by
    simp only [List.length_append, ephemeral, token]
    omega
  have first : (({ s with peerEph := some e }.mixHash prim e).mixKey prim
      (prim.diffieHellman s.localKeys.secret e)).decryptAndHash prim sEnc =
        .ok (sPub, { s with peerEph := some e }.setSymmetric ss₁) := decryptAndHash_eq static
  rw [readMessage1, if_neg (fun other => other role), if_neg long]
  simp only [front, rest, ← token, List.take_left, List.drop_left, first, bind, Except.bind, short,
    ne_eq, not_true_eq_false, if_false, setSymmetric_localKeys]
  cases offerEnc with
  | nil =>
      cases offered
      rfl
  | cons b offerEnc =>
      have second :
          ({ { s with peerEph := some e }.setSymmetric ss₁ with peerStatic := some sPub }.mixKey
            prim (prim.diffieHellman s.localKeys.secret sPub)).decryptAndHash prim
              (b :: offerEnc) =
            .ok (offer,
              { { s with peerEph := some e }.setSymmetric ss₂ with peerStatic := some sPub }) :=
        decryptAndHash_eq (s := { s with peerEph := some e, peerStatic := some sPub }) offered
      simp only [setSymmetric] at second ⊢
      simp only [List.isEmpty_cons, Bool.false_eq_true, if_false, second]
      rfl

theorem writeMessage2_eq {ephemeral payload initiatorE initiatorS enc : List β}
    (role : s.role = .responder) (peerEph : s.peerEph = some initiatorE)
    (peerStatic : s.peerStatic = some initiatorS) (keySchedule : Bytes)
    (sealed : (((s.symmetric.mixHash prim (prim.publicKey ephemeral)).mixKey prim
      (prim.diffieHellman ephemeral initiatorE)).mixKey prim
        (prim.diffieHellman ephemeral initiatorS)).encryptAndHash prim payload =
        some (enc, ss₁)) :
    s.writeMessage2 prim ephemeral payload keySchedule =
      .ok ((prim.publicKey ephemeral ++ enc, (s.setSymmetric ss₁).split prim keySchedule),
        { s.setSymmetric ss₁ with localEph := some ephemeral }) := by
  have first : (((s.mixHash prim (prim.publicKey ephemeral)).mixKey prim
      (prim.diffieHellman ephemeral initiatorE)).mixKey prim
        (prim.diffieHellman ephemeral initiatorS)).encryptAndHash prim payload =
          .ok (enc, s.setSymmetric ss₁) := encryptAndHash_eq sealed
  rw [writeMessage2, if_neg (fun other => other role)]
  simp only [peerEph, peerStatic, first, bind, Except.bind]
  rfl

theorem readMessage2_eq {ephemeral payload e enc : List β} (role : s.role = .initiator)
    (drawn : s.localEph = some ephemeral) (front : e.length = 32) (tagged : TAG_LEN ≤ enc.length)
    (keySchedule : List β → Bytes)
    (opened : (((s.symmetric.mixHash prim e).mixKey prim (prim.diffieHellman ephemeral e)).mixKey
      prim (prim.diffieHellman s.localKeys.secret e)).decryptAndHash prim enc =
      some (payload, ss₁)) :
    s.readMessage2 prim (e ++ enc) keySchedule =
      .ok ((payload, (s.setSymmetric ss₁).split prim (keySchedule payload)),
        { s.setSymmetric ss₁ with peerEph := some e, localEph := none }) := by
  have long : ¬ (e ++ enc).length < 32 + TAG_LEN := by
    simp only [List.length_append, front]
    omega
  have first : ((({ s with peerEph := some e, localEph := none }.mixHash prim e).mixKey prim
      (prim.diffieHellman ephemeral e)).mixKey prim
        (prim.diffieHellman s.localKeys.secret e)).decryptAndHash prim enc =
          .ok (payload, { s with peerEph := some e, localEph := none }.setSymmetric ss₁) :=
    decryptAndHash_eq opened
  rw [readMessage2, if_neg (fun other => other role), if_neg long]
  simp only [← front, List.take_left, List.drop_left, mixHash, drawn]
  simp only [mixHash] at first
  simp only [mixKey_localKeys, first, bind, Except.bind]
  rfl

end NoiseHandshake

/-! ## Whole handshakes -/

/-- The chaining key and the hash before, between and after the messages, and the
    messages themselves. -/
structure Transcript (β : Type) where
  start : List β × List β
  message1 : List β
  between : List β × List β
  message2 : List β
  finish : List β × List β

namespace SymmetricState

variable (prim : NoisePrimitives β)

def digest (ss : SymmetricState β) : List β × List β := (ss.ck, ss.h)

/-- The tokens of the two messages from a given state, with a way to put the payload
    into message 1. -/
def ikFrom (sealPayload : SymmetricState β → List β → Option (List β × SymmetricState β))
    (ss : SymmetricState β)
    (initiator responder ephemeral₁ ephemeral₂ payload₁ payload₂ : List β) :
    Option (Transcript β) :=
  let e₁ := prim.publicKey ephemeral₁
  let e₂ := prim.publicKey ephemeral₂
  let s := prim.publicKey initiator
  let rs := prim.publicKey responder
  match ((ss.mixHash prim e₁).mixKey prim (prim.diffieHellman ephemeral₁ rs)).encryptAndHash
    prim s with
  | none => none
  | some (sEnc, ss₁) =>
      match sealPayload (ss₁.mixKey prim (prim.diffieHellman initiator rs)) payload₁ with
      | none => none
      | some (enc₁, ss₂) =>
          match (((ss₂.mixHash prim e₂).mixKey prim
            (prim.diffieHellman ephemeral₂ e₁)).mixKey prim
            (prim.diffieHellman ephemeral₂ s)).encryptAndHash prim payload₂ with
          | none => none
          | some (enc₂, ss₃) =>
              some ⟨ss.digest, e₁ ++ sEnc ++ enc₁, ss₂.digest,
                e₂ ++ enc₂, ss₃.digest⟩

/-- The specification starts from the name, an empty prologue and the static key that
    the initiator knows. -/
def ikStart (responder : List β) : SymmetricState β :=
  ((initializeSymmetric prim (lits NOISE_NAME)).mixHash prim []).mixHash prim
    (prim.publicKey responder)

/-- The transcript of the specification: every message ends in a sealed payload. -/
def ikTranscript (initiator responder ephemeral₁ ephemeral₂ payload₁ payload₂ : List β) :
    Option (Transcript β) :=
  ikFrom prim (encryptAndHash prim) (ikStart prim responder) initiator responder ephemeral₁
    ephemeral₂ payload₁ payload₂

end SymmetricState

namespace NoiseHandshake

variable (prim : NoisePrimitives β)

/-- The two messages of the code, as the initiator and as the responder see them. -/
def transcripts (initiator responder ephemeral₁ ephemeral₂ payload₁ payload₂ : List β)
    (keySchedule : Bytes) :
    Except NoiseError (Transcript β × Transcript β) := do
  let i := new prim .initiator (.generate prim initiator) (some (prim.publicKey responder))
  let r := new prim .responder (.generate prim responder) none
  let (m₁, i₁) ← i.writeMessage1 prim ephemeral₁ payload₁
  let (_, r₁) ← r.readMessage1 prim m₁
  let ((m₂, _), r₂) ← r₁.writeMessage2 prim ephemeral₂ payload₂ keySchedule
  let (_, i₂) ← i₁.readMessage2 prim m₂ fun _ => keySchedule
  return (⟨i.symmetric.digest, m₁, i₁.symmetric.digest, m₂, i₂.symmetric.digest⟩,
    ⟨r.symmetric.digest, m₁, r₁.symmetric.digest, m₂, r₂.symmetric.digest⟩)

/-- Both sides run through the same states, and those are the states of the tokens. -/
theorem exchange (lawful : prim.Lawful)
    (initiator responder ephemeral₁ ephemeral₂ payload₁ payload₂ : List β)
    (keySchedule : Bytes) (reads : List β → Bytes) :
    let i := new prim .initiator (.generate prim initiator) (some (prim.publicKey responder))
    let r := new prim .responder (.generate prim responder) none
    ∃ m₁ m₂ between finish,
      let i₁ := { i.setSymmetric between with localEph := some ephemeral₁ }
      let r₁ := { r.setSymmetric between with
        peerEph := some (prim.publicKey ephemeral₁), peerStatic :=
          some (prim.publicKey initiator) }
      i.writeMessage1 prim ephemeral₁ payload₁ = .ok (m₁, i₁) ∧
      r.readMessage1 prim m₁ = .ok ((prim.publicKey initiator, payload₁), r₁) ∧
      r₁.writeMessage2 prim ephemeral₂ payload₂ keySchedule =
        .ok ((m₂, (i.setSymmetric finish).split prim keySchedule),
          { r₁.setSymmetric finish with localEph := some ephemeral₂ }) ∧
      i₁.readMessage2 prim m₂ reads =
        .ok ((payload₂, (i.setSymmetric finish).split prim (reads payload₂)),
          { i₁.setSymmetric finish with
            peerEph := some (prim.publicKey ephemeral₂), localEph := none }) ∧
      SymmetricState.ikFrom prim (SymmetricState.sealOffer prim) i.symmetric initiator responder
        ephemeral₁ ephemeral₂ payload₁ payload₂ =
        some ⟨i.symmetric.digest, m₁, between.digest, m₂, finish.digest⟩ := by
  intro i r
  obtain ⟨sEnc, ss₁, sealS, openS, longS⟩ := SymmetricState.seals lawful
    (i.symmetric.mixHash prim (prim.publicKey ephemeral₁))
    (prim.diffieHellman ephemeral₁ (prim.publicKey responder)) (prim.publicKey initiator)
  obtain ⟨enc₁, between, seal₁, open₁⟩ := SymmetricState.seals_offer lawful ss₁
    (prim.diffieHellman initiator (prim.publicKey responder)) payload₁
  obtain ⟨enc₂, finish, seal₂, open₂, long₂⟩ := SymmetricState.seals lawful
    ((between.mixHash prim (prim.publicKey ephemeral₂)).mixKey prim
      (prim.diffieHellman ephemeral₂ (prim.publicKey ephemeral₁)))
    (prim.diffieHellman ephemeral₂ (prim.publicKey initiator)) payload₂
  refine ⟨prim.publicKey ephemeral₁ ++ sEnc ++ enc₁, prim.publicKey ephemeral₂ ++ enc₂,
    between, finish, ?_, ?_, ?_, ?_, ?_⟩
  · exact writeMessage1_eq rfl rfl sealS seal₁
  · rw [lawful.diffieHellman_comm] at openS open₁
    refine readMessage1_eq rfl (lawful.publicKey_length _)
      ?_ (lawful.publicKey_length _) openS open₁
    rw [longS, lawful.publicKey_length]
  · exact writeMessage2_eq rfl rfl rfl keySchedule seal₂
  · rw [lawful.diffieHellman_comm ephemeral₂ ephemeral₁,
      lawful.diffieHellman_comm ephemeral₂ initiator] at open₂
    exact readMessage2_eq rfl rfl (lawful.publicKey_length _) (by omega) reads open₂
  · simp only [SymmetricState.ikFrom, sealS, seal₁, seal₂]

/-- The code against the specification: both sides of the code must produce the
    transcript of the specification. -/
def Conforms (initiator responder ephemeral₁ ephemeral₂ payload₁ payload₂ : List β)
    (keySchedule : Bytes) : Prop :=
  (transcripts prim initiator responder ephemeral₁ ephemeral₂ payload₁ payload₂
    keySchedule).toOption =
    (SymmetricState.ikTranscript prim initiator responder ephemeral₁ ephemeral₂ payload₁
    payload₂).map fun t => (t, t)

variable {prim}

theorem transcripts_eq (lawful : prim.Lawful)
    (initiator responder ephemeral₁ ephemeral₂ payload₁ payload₂ : List β)
    (keySchedule : Bytes) :
    let start : SymmetricState β :=
    ⟨prim.sha256 (lits NOISE_NAME), prim.sha256 (lits NOISE_NAME), none, 0⟩
    ∃ t, transcripts prim initiator responder ephemeral₁ ephemeral₂ payload₁ payload₂
      keySchedule = .ok (t, t) ∧ SymmetricState.ikFrom prim (SymmetricState.sealOffer prim) start
      initiator responder ephemeral₁ ephemeral₂ payload₁ payload₂ = some t := by
  intro start
  obtain ⟨m₁, m₂, between, finish, write₁, read₁, write₂, read₂, tokens⟩ :=
    exchange prim lawful initiator responder ephemeral₁ ephemeral₂ payload₁ payload₂ keySchedule
      fun _ => keySchedule
  refine ⟨_, ?_, tokens⟩
  simp only [transcripts, write₁, read₁, write₂, read₂, bind, Except.bind]
  rfl

theorem ikStart_eq_iff (prim : NoisePrimitives β) (responder : List β) :
    (prim.sha256 (lits NOISE_NAME), prim.sha256 (lits NOISE_NAME)) =
    (SymmetricState.ikStart prim responder).digest ↔ prim.sha256
    (lits NOISE_NAME) = lits NOISE_NAME ∧
        prim.sha256 (lits NOISE_NAME ++ prim.publicKey responder) = lits NOISE_NAME := by
  have padded : (SymmetricState.initializeSymmetric prim (lits NOISE_NAME)).h =
    lits NOISE_NAME := by
    simp [SymmetricState.initializeSymmetric, NOISE_NAME]
  have start : (SymmetricState.ikStart prim responder).digest = (lits NOISE_NAME,
      prim.sha256 (prim.sha256 (lits NOISE_NAME) ++ prim.publicKey responder)) := by
    rw [← List.append_nil (lits NOISE_NAME), ← padded]
    simp [SymmetricState.ikStart, SymmetricState.digest, SymmetricState.mixHash,
      SymmetricState.initializeSymmetric, NOISE_NAME]
  rw [start, Prod.mk.injEq]
  constructor
  · rintro ⟨ck, h⟩
    rw [ck] at h
    exact ⟨ck, h.symm⟩
  · rintro ⟨ck, h⟩
    rw [ck]
    exact ⟨rfl, h.symm⟩

theorem ikFrom_some (lawful : prim.Lawful) {sealPayload ss t}
    {initiator responder ephemeral₁ ephemeral₂ payload₁ payload₂ : List β}
    (tokens : SymmetricState.ikFrom prim sealPayload ss initiator responder ephemeral₁
      ephemeral₂ payload₁ payload₂ = some t) :
    t.start = ss.digest ∧ ∃ (ss₁ : SymmetricState β) (enc₁ : List β)
    (ss₂ : SymmetricState β), sealPayload
    (ss₁.mixKey prim (prim.diffieHellman initiator (prim.publicKey responder))) payload₁ =
    some (enc₁, ss₂) ∧
        t.message1.length = 32 + (32 + TAG_LEN) + enc₁.length := by
  obtain ⟨sEnc, ss₁, sealS, -, longS⟩ := SymmetricState.seals lawful
    (ss.mixHash prim (prim.publicKey ephemeral₁))
    (prim.diffieHellman ephemeral₁ (prim.publicKey responder)) (prim.publicKey initiator)
  simp only [SymmetricState.ikFrom, sealS] at tokens
  cases sealed : sealPayload
    (ss₁.mixKey prim (prim.diffieHellman initiator (prim.publicKey responder))) payload₁ with
  | none =>
      rw [sealed] at tokens
      cases tokens
  | some result =>
      obtain ⟨enc₂, finish, seal₂, -, -⟩ := SymmetricState.seals lawful
        ((result.2.mixHash prim (prim.publicKey ephemeral₂)).mixKey prim
          (prim.diffieHellman ephemeral₂ (prim.publicKey ephemeral₁)))
        (prim.diffieHellman ephemeral₂ (prim.publicKey initiator)) payload₂
      simp only [sealed, seal₂] at tokens
      cases tokens
      refine ⟨rfl, ss₁, result.1, result.2, sealed, ?_⟩
      simp only [List.length_append, lawful.publicKey_length, longS]

/-- The code conforms exactly when it has a payload to send in message 1 and the hash
    leaves the name as it is, alone and before the responder's key. -/
theorem conforms_iff (lawful : prim.Lawful)
    (initiator responder ephemeral₁ ephemeral₂ payload₁ payload₂ : List β)
    (keySchedule : Bytes) :
    Conforms prim initiator responder ephemeral₁ ephemeral₂ payload₁ payload₂
    keySchedule ↔ payload₁ ≠ [] ∧ prim.sha256 (lits NOISE_NAME) = lits NOISE_NAME ∧
    prim.sha256 (lits NOISE_NAME ++ prim.publicKey responder) = lits NOISE_NAME := by
  obtain ⟨t, runs, tokens⟩ :=
    transcripts_eq lawful initiator responder ephemeral₁ ephemeral₂ payload₁
    payload₂ keySchedule
  obtain ⟨start, ss₁, enc₁, ss₂, sealed, long⟩ := ikFrom_some lawful tokens
  have conforms : Conforms prim initiator responder ephemeral₁ ephemeral₂ payload₁ payload₂
    keySchedule ↔ SymmetricState.ikTranscript prim initiator responder ephemeral₁ ephemeral₂
    payload₁ payload₂ = some t := by
    rw [Conforms, runs, Except.toOption]
    cases SymmetricState.ikTranscript prim initiator responder ephemeral₁ ephemeral₂ payload₁
      payload₂ with
    | none => simp
    | some t' => simp [eq_comm]
  rw [conforms, ← ikStart_eq_iff]
  constructor
  · intro spec
    obtain ⟨start', ss₁', enc₁', ss₂', sealed', long'⟩ := ikFrom_some lawful spec
    refine ⟨?_, start.symm.trans start'⟩
    rintro rfl
    obtain ⟨c, after, encrypted, -, tagged⟩ := SymmetricState.seals lawful ss₁'
      (prim.diffieHellman initiator (prim.publicKey responder)) []
    rw [encrypted] at sealed'
    cases sealed'
    cases sealed
    simp only [List.length_nil, TAG_LEN] at long long' tagged
    omega
  · rintro ⟨payload, same⟩
    have states : SymmetricState.ikStart prim responder =
        ⟨prim.sha256 (lits NOISE_NAME), prim.sha256 (lits NOISE_NAME), none, 0⟩ := by
      rw [SymmetricState.digest, Prod.mk.injEq] at same
      rw [same.1]
      nth_rewrite 2 [← same.1]
      rw [same.2]
      rfl
    rw [SymmetricState.ikTranscript, states, ← tokens]
    cases payload₁ with
    | nil => exact absurd rfl payload
    | cons => rfl

/-- No keys, ephemerals and payloads make the code conform for every hash, and for a
    given hash it conforms only if the hash leaves the name of the protocol as it is. -/
theorem never_conforms
    (initiator responder ephemeral₁ ephemeral₂ payload₁ payload₂ keySchedule : Bytes) :
    (∀ prim : NoisePrimitives UInt8, prim.Lawful →
      (Conforms prim initiator responder ephemeral₁ ephemeral₂ payload₁ payload₂
        keySchedule ↔ payload₁ ≠ [] ∧ prim.sha256 NOISE_NAME = NOISE_NAME ∧
          prim.sha256 (NOISE_NAME ++ prim.publicKey responder) = NOISE_NAME)) ∧
      ¬ ∀ prim : NoisePrimitives UInt8, prim.Lawful →
        Conforms prim initiator responder ephemeral₁ ephemeral₂ payload₁ payload₂
        keySchedule := by
  have name : (lits NOISE_NAME : Bytes) = NOISE_NAME := List.map_id _
  refine ⟨fun prim lawful => ?_, fun all => ?_⟩
  · rw [conforms_iff lawful, name]
  · have same :=
      ((conforms_iff NoisePrimitives.summing_lawful initiator responder ephemeral₁ ephemeral₂
      payload₁ payload₂ keySchedule).mp (all _ NoisePrimitives.summing_lawful)).2.1
    revert same
    decide

/-- Without an offer, whatever the keys. -/
theorem empty_payload_not_conforming :
    ¬ Conforms NoisePrimitives.summing (List.replicate 32 1) (List.replicate 32 2)
    (List.replicate 32 3) (List.replicate 32 4) [] [1, 1, 0, 1, 0, 0, 1] [] := fun conforms =>
  absurd rfl ((conforms_iff NoisePrimitives.summing_lawful _ _ _ _ _ _ _).mp conforms).1

end NoiseHandshake

end Rustnies
