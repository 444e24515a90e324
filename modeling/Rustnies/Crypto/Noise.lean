import Rustnies.Crypto.Aead

/-! # The Noise IK handshake

`crypto/noise.rs`. X25519, SHA-256, HKDF-SHA-256 and the AEAD are outside the
repository and enter as functions; a fresh ephemeral is an argument of the message
that draws it. The handshake is written over a type of bytes, since it only moves
what the primitives return.
-/

namespace Rustnies

def NOISE_NAME : Bytes :=
  [0x4E, 0x6F, 0x69, 0x73, 0x65, 0x5F, 0x49, 0x4B, 0x5F, 0x32, 0x35, 0x35, 0x31, 0x39, 0x5F, 0x43,
   0x68, 0x61, 0x43, 0x68, 0x61, 0x50, 0x6F, 0x6C, 0x79, 0x5F, 0x53, 0x48, 0x41, 0x32, 0x35, 0x36]

/-- `rustnies-transport-keys`. -/
def TRANSPORT_KEY_INFO : Bytes :=
  [0x72, 0x75, 0x73, 0x74, 0x6E, 0x69, 0x65, 0x73, 0x2D, 0x74, 0x72, 0x61, 0x6E, 0x73, 0x70, 0x6F,
   0x72, 0x74, 0x2D, 0x6B, 0x65, 0x79, 0x73]

/-- The primitives under the handshake. -/
structure NoisePrimitives (β : Type) where
  /-- The public key of a secret. -/
  publicKey : List β → List β
  /-- A secret and the other side's public key. -/
  diffieHellman : List β → List β → List β
  sha256 : List β → List β
  /-- Salt, input key material, info and output length. -/
  hkdf : List β → List β → List β → Nat → List β
  aead : Aead β
  sha256_length : ∀ data, (sha256 data).length = 32
  hkdf_length : ∀ salt ikm info n, (hkdf salt ikm info n).length = n

/-- Primitives that hide nothing: a public key is its secret, a hash is the end of
    what is hashed, and a tag is zero. They keep the lengths and the round trips of
    the real ones, and runs on fixed inputs use them. -/
def NoisePrimitives.transparent : NoisePrimitives UInt8 where
  publicKey secret := secret
  diffieHellman := List.zipWith (· + ·)
  sha256 data := (List.replicate 32 0 ++ data).drop data.length
  hkdf _ ikm _ n := (ikm ++ List.replicate n 0).take n
  aead := {
    encrypt := fun _ _ _ plaintext => some (plaintext ++ List.replicate TAG_LEN 0)
    decrypt := fun _ _ _ ciphertext =>
      if ciphertext.length < TAG_LEN then none
      else if ciphertext.drop (ciphertext.length - TAG_LEN) ≠ List.replicate TAG_LEN 0 then none
      else some (ciphertext.take (ciphertext.length - TAG_LEN)) }
  sha256_length data := by
    rw [List.length_drop, List.length_append, List.length_replicate, Nat.add_sub_cancel]
  hkdf_length _ ikm _ n := by simp

/-- Primitives in which keys of any length are cut or padded to 32 bytes, secrets add
    up, a hash is the sum of what is hashed and a tag is the front of the key. -/
def NoisePrimitives.summing : NoisePrimitives UInt8 where
  publicKey secret := (secret ++ List.replicate 32 0).take 32
  diffieHellman secret peer := List.zipWith (· + ·) ((secret ++ List.replicate 32 0).take 32) peer
  sha256 data := List.replicate 32 (data.foldr (· + ·) 0)
  hkdf salt ikm _ n :=
    (List.zipWith (· + ·) salt ikm ++ List.zipWith (· + ·) salt ikm ++
      List.replicate n 0).take n
  aead := {
    encrypt := fun key _ _ plaintext =>
      some (plaintext ++ (key ++ List.replicate TAG_LEN 0).take TAG_LEN)
    decrypt := fun key _ _ ciphertext =>
      if ciphertext.length < TAG_LEN then none
      else if ciphertext.drop (ciphertext.length - TAG_LEN) ≠
        (key ++ List.replicate TAG_LEN 0).take TAG_LEN then none
      else some (ciphertext.take (ciphertext.length - TAG_LEN)) }
  sha256_length _ := List.length_replicate
  hkdf_length salt ikm _ n := by
    rw [List.length_take, List.length_append, List.length_replicate]
    exact Nat.min_eq_left (Nat.le_add_left _ _)

structure KeyPair (β : Type) where
  secret : List β
  publicKey : List β

/-- `KeyPair::generate`, on the secret it draws. -/
def KeyPair.generate {β : Type} (prim : NoisePrimitives β) (secret : List β) : KeyPair β where
  secret := secret
  publicKey := prim.publicKey secret

inductive NoiseError where
  | wrongRole
  | messageTooShort
  | decryptFailed
  | badStaticKey
  | missingPeerStatic
  | missingPeerEphemeral
  | missingLocalEphemeral
  | missingKey
  | encryptFailed
  deriving Repr, DecidableEq

inductive HandshakeRole where
  | initiator
  | responder
  deriving Repr, DecidableEq

structure HandshakeResult (β : Type) where
  keyI2r : List β
  keyR2i : List β
  handshakeHash : List β

structure NoiseHandshake (β : Type) where
  role : HandshakeRole
  ck : List β
  h : List β
  k : Option (List β) := none
  n : Nat := 0
  localKeys : KeyPair β
  localEph : Option (List β) := none
  peerStatic : Option (List β)
  peerEph : Option (List β) := none

namespace NoiseHandshake

variable {β : Type} [Byte β] (prim : NoisePrimitives β)

def new (role : HandshakeRole) (localKeys : KeyPair β) (peerStatic : Option (List β)) :
    NoiseHandshake β where
  role := role
  ck := prim.sha256 (lits NOISE_NAME)
  h := prim.sha256 (lits NOISE_NAME)
  localKeys := localKeys
  peerStatic := peerStatic

/-! ## The symmetric state -/

def mixHash (s : NoiseHandshake β) (data : List β) : NoiseHandshake β :=
  { s with h := prim.sha256 (s.h ++ data) }

def mixKey (s : NoiseHandshake β) (input : List β) : NoiseHandshake β :=
  let okm := prim.hkdf s.ck input [] 64
  { s with ck := okm.take 32, k := some (okm.drop 32), n := 0 }

/-- Four zero bytes and the counter, little-endian. -/
def noiseNonce (n : Nat) : List β := lits ([0, 0, 0, 0] ++ leBytes 8 n)

def encryptAndHash (s : NoiseHandshake β) (plaintext : List β) :
    Except NoiseError (List β × NoiseHandshake β) :=
  match s.k with
  | none => .error .missingKey
  | some k =>
      match prim.aead.encrypt k (noiseNonce s.n) s.h plaintext with
      | none => .error .encryptFailed
      | some c => .ok (c, { s with n := s.n + 1 }.mixHash prim c)

def decryptAndHash (s : NoiseHandshake β) (ciphertext : List β) :
    Except NoiseError (List β × NoiseHandshake β) :=
  match s.k with
  | none => .error .missingKey
  | some k =>
      match prim.aead.decrypt k (noiseNonce s.n) s.h ciphertext with
      | none => .error .decryptFailed
      | some p => .ok (p, { s with n := s.n + 1 }.mixHash prim ciphertext)

/-- `Split()`, then the two application keys under the suite's context. -/
def split (s : NoiseHandshake β) (keySchedule : Bytes) : HandshakeResult β :=
  let okm := prim.hkdf s.ck [] (lits (TRANSPORT_KEY_INFO ++ keySchedule)) 64
  { keyI2r := okm.take 32, keyR2i := okm.drop 32, handshakeHash := s.h }

/-! ## Message 1: e, es, s, ss -/

def writeMessage1 (s : NoiseHandshake β) (ephemeral offer : List β) :
    Except NoiseError (List β × NoiseHandshake β) :=
  if s.role ≠ .initiator then .error .wrongRole
  else
    match s.peerStatic with
    | none => .error .missingPeerStatic
    | some rs => do
        let e := prim.publicKey ephemeral
        let s := (s.mixHash prim e).mixKey prim (prim.diffieHellman ephemeral rs)
        let (sEnc, s) ← s.encryptAndHash prim s.localKeys.publicKey
        let s := s.mixKey prim (prim.diffieHellman s.localKeys.secret rs)
        if offer.isEmpty then return (e ++ sEnc, { s with localEph := some ephemeral })
        else
          let (offerEnc, s) ← s.encryptAndHash prim offer
          return (e ++ sEnc ++ offerEnc, { s with localEph := some ephemeral })

/-- The initiator's static key and the offer, which is empty when nothing trails the
    static key. -/
def readMessage1 (s : NoiseHandshake β) (msg : List β) :
    Except NoiseError ((List β × List β) × NoiseHandshake β) :=
  if s.role ≠ .responder then .error .wrongRole
  else if msg.length < 32 + 32 + TAG_LEN then .error .messageTooShort
  else do
    let e := msg.take 32
    let s := ({ s with peerEph := some e }.mixHash prim e).mixKey prim
      (prim.diffieHellman s.localKeys.secret e)
    let rest := msg.drop 32
    let sEnc := rest.take (32 + TAG_LEN)
    let trailing := rest.drop (32 + TAG_LEN)
    let (sPub, s) ← s.decryptAndHash prim sEnc
    if sPub.length ≠ 32 then .error .badStaticKey
    else
      let s := { s with peerStatic := some sPub }.mixKey prim
        (prim.diffieHellman s.localKeys.secret sPub)
      if trailing.isEmpty then return ((sPub, []), s)
      else
        let (offer, s) ← s.decryptAndHash prim trailing
        return ((sPub, offer), s)

/-! ## Message 2: e, ee, se -/

def writeMessage2 (s : NoiseHandshake β) (ephemeral payload : List β) (keySchedule : Bytes) :
    Except NoiseError ((List β × HandshakeResult β) × NoiseHandshake β) :=
  if s.role ≠ .responder then .error .wrongRole
  else
    match s.peerEph, s.peerStatic with
    | none, _ => .error .missingPeerEphemeral
    | some _, none => .error .missingPeerStatic
    | some initiatorE, some initiatorS => do
        let e := prim.publicKey ephemeral
        let s := s.mixHash prim e
        let s := s.mixKey prim (prim.diffieHellman ephemeral initiatorE)
        let s := s.mixKey prim (prim.diffieHellman ephemeral initiatorS)
        let (enc, s) ← s.encryptAndHash prim payload
        let s := { s with localEph := some ephemeral }
        return ((e ++ enc, s.split prim keySchedule), s)

/-- The suite's context is read out of the decrypted payload. -/
def readMessage2 (s : NoiseHandshake β) (msg : List β) (keySchedule : List β → Bytes) :
    Except NoiseError ((List β × HandshakeResult β) × NoiseHandshake β) :=
  if s.role ≠ .initiator then .error .wrongRole
  else if msg.length < 32 + TAG_LEN then .error .messageTooShort
  else
    let e := msg.take 32
    let s := { s with peerEph := some e }.mixHash prim e
    match s.localEph with
    | none => .error .missingLocalEphemeral
    | some eLocal => do
        let s := { s with localEph := none }.mixKey prim (prim.diffieHellman eLocal e)
        let s := s.mixKey prim (prim.diffieHellman s.localKeys.secret e)
        let (payload, s) ← s.decryptAndHash prim (msg.drop 32)
        return ((payload, s.split prim (keySchedule payload)), s)

end NoiseHandshake

end Rustnies
