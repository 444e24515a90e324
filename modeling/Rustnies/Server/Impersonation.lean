import Rustnies.Crypto.Symbolic
import Rustnies.Protocol.Agreement
import Rustnies.Server.Admission
import Rustnies.Server.Replay
import Rustnies.Server.Sessions

/-! # Who can speak for a static key

Message 1 carries the initiator's static key under a key that anyone can compute who
knows the responder's public key. What proves possession of the static secret is the
`ss` exchange, and only the trailing payload is sealed under a key that depends on it.
The code leaves that payload out when there is nothing to offer, and its tag with it.
-/

namespace Rustnies

variable {β : Type} [Byte β] {prim : NoisePrimitives β} {knows : List β → Prop}

namespace NoiseHandshake

/-- The responder after the `es` exchange. -/
def afterEs (prim : NoisePrimitives β) (server : KeyPair β) (e : List β) : NoiseHandshake β :=
  ({ new prim .responder server none with peerEph := some e }.mixHash prim e).mixKey prim
    (prim.diffieHellman server.secret e)

/-- The static field of a message opens to a key. -/
def Names (prim : NoisePrimitives β) (server : KeyPair β) (msg key : List β) : Prop :=
  ∃ s, (afterEs prim server (msg.take 32)).decryptAndHash prim
    ((msg.drop 32).take (32 + TAG_LEN)) = .ok (key, s)

theorem decryptAndHash_ok {s s' : NoiseHandshake β} {ciphertext plaintext : List β}
    (opened : s.decryptAndHash prim ciphertext = .ok (plaintext, s')) :
    (∃ k, s.k = some k ∧ prim.aead.decrypt k (noiseNonce s.n) s.h ciphertext =
      some plaintext) ∧ s'.role = s.role ∧ s'.peerEph = s.peerEph ∧
    s'.localKeys = s.localKeys := by
  simp only [decryptAndHash] at opened
  split at opened
  · cases opened
  · rename_i k keyed
    split at opened
    · cases opened
    · rename_i message decrypted
      cases opened
      exact ⟨⟨k, keyed, decrypted⟩, rfl, rfl, rfl⟩

theorem decryptAndHash_mixKey {s s' : NoiseHandshake β} {input ciphertext plaintext : List β}
    (opened : (s.mixKey prim input).decryptAndHash prim ciphertext = .ok (plaintext, s')) :
    prim.aead.decrypt ((prim.hkdf s.ck input [] 64).drop 32)
    (noiseNonce 0) s.h ciphertext = some plaintext := by
  obtain ⟨⟨k, keyed, decrypted⟩, -⟩ := decryptAndHash_ok opened
  cases keyed
  exact decrypted

/-- What reading a message 1 shows: its static field opens to the key, and a trailing
    payload opens under the key of the `ss` exchange. -/
theorem readMessage1_ok {server : KeyPair β} {msg key offer : List β} {s : NoiseHandshake β}
    (read : (new prim .responder server none).readMessage1 prim msg = .ok ((key, offer), s)) :
    Names prim server msg key ∧
      ((msg.length = MSG1_MIN ∧ offer = []) ∨ ∃ salt nonce ad,
        prim.aead.decrypt ((prim.hkdf salt (prim.diffieHellman server.secret key) [] 64).drop 32)
        nonce ad (msg.drop MSG1_MIN) = some offer) := by
  simp only [readMessage1] at read
  split at read
  · cases read
  · split at read
    · cases read
    · rename_i long
      obtain ⟨⟨sPub, after⟩, opened, read⟩ := bind_eq_ok_iff.mp read
      simp only at read
      split at read
      · cases read
      · split at read
        · rename_i bare
          cases read
          refine ⟨⟨_, opened⟩, .inl ⟨?_, rfl⟩⟩
          rw [List.isEmpty_iff, List.drop_drop, List.drop_eq_nil_iff] at bare
          exact Nat.le_antisymm bare (Nat.le_of_not_lt long)
        · obtain ⟨⟨payload, final⟩, trailing, read⟩ := bind_eq_ok_iff.mp read
          cases read
          obtain ⟨-, -, -, keys⟩ := decryptAndHash_ok opened
          rw [List.drop_drop, keys] at trailing
          exact ⟨⟨_, opened⟩, .inr ⟨_, _, _, decryptAndHash_mixKey trailing⟩⟩

/-- A message without a payload is read as coming from the key that its static field
    opens to. -/
theorem readMessage1_bare {server : KeyPair β} {msg key : List β} (bare : msg.length = MSG1_MIN)
    (names : Names prim server msg key) (long : key.length = 32) :
    ∃ s e, (new prim .responder server none).readMessage1 prim msg = .ok ((key, []), s) ∧
      s.role = .responder ∧ s.peerEph = some e ∧ s.peerStatic = some key := by
  obtain ⟨after, opened⟩ := names
  obtain ⟨-, role, ephemeral, -⟩ := decryptAndHash_ok opened
  have nothing : ((msg.drop 32).drop (32 + TAG_LEN)).isEmpty = true := by
    rw [List.isEmpty_iff, List.drop_drop, List.drop_eq_nil_iff]
    exact Nat.le_of_eq bare
  refine ⟨{ after with peerStatic := some key }.mixKey prim
    (prim.diffieHellman after.localKeys.secret key), msg.take 32, ?_, role, ephemeral, rfl⟩
  have enough : ¬ msg.length < 32 + 32 + TAG_LEN := Nat.not_lt.mpr (Nat.le_of_eq bare.symm)
  rw [readMessage1, if_neg (fun other => other rfl), if_neg enough]
  refine bind_eq_ok_iff.mpr ⟨_, opened, ?_⟩
  simp only [long, ne_eq, not_true_eq_false, if_false, nothing, if_true]
  rfl

/-- Anyone who knows two public keys can name one to the other. -/
theorem writeMessage1_built (attacker : Attacker prim knows) {keys : KeyPair β}
    {rs ephemeral msg : List β} {s : NoiseHandshake β} (key : knows keys.publicKey)
    (peer : knows rs) (drawn : knows ephemeral)
    (written : (new prim .initiator keys (some rs)).writeMessage1 prim ephemeral [] =
      .ok (msg, s)) :
    knows msg := by
  have start : knows (prim.sha256 (lits NOISE_NAME)) := attacker.sha256 _ (attacker.literal _)
  have e : knows (prim.publicKey ephemeral) := attacker.publicKey _ drawn
  have none : knows [] := attacker.literal []
  rw [writeMessage1, if_neg (fun other => other rfl)] at written
  obtain ⟨⟨sEnc, after⟩, sealed, written⟩ := bind_eq_ok_iff.mp written
  cases written
  refine attacker.append _ _ e ?_
  simp only [encryptAndHash, mixKey] at sealed
  split at sealed
  · cases sealed
  · rename_i c encrypted
    cases sealed
    exact attacker.encrypt _ _ _ _ _
      (attacker.cut _ _
        (attacker.hkdf _ _ _ _ start (attacker.diffieHellman _ _ drawn peer) none)).2
        (attacker.literal _) (attacker.sha256 _ (attacker.append _ _ start e)) key encrypted

end NoiseHandshake

/-! ## The responder -/

/-- The responder answers a key that makes no offer. -/
def AnswersBare (profile : LocalProfile) (authorizer : Option (Authorizer β)) (key : List β) :
    Prop :=
  selectHandshake profile.kexName = .ok .noiseIk ∧ (authorize authorizer key).isSome ∧
    ∃ selection, negotiate profile.prefs none profile.dataTag = .ok selection ∧
    selection.check = .ok ()

/-- The message names the key, carries no payload, and is one that the responder answers. -/
def SpeaksFor (prim : NoisePrimitives β) (server : KeyPair β) (profile : LocalProfile)
    (authorizer : Option (Authorizer β)) (msg1 key : List β) : Prop :=
  msg1.length = MSG1_MIN ∧ NoiseHandshake.Names prim server msg1 key ∧
    AnswersBare profile authorizer key

variable {server : KeyPair β} {profile : LocalProfile} {obfuscation : ObfuscationStack β}
variable {authorizer : Option (Authorizer β)} {clientSecret datagram msg1 key : List β}

theorem SpeaksFor.answered (lawful : prim.Lawful)
    (speaks : SpeaksFor prim server profile authorizer msg1 key) (long : key.length = 32)
    (framed : framedMessage1 profile obfuscation datagram = some msg1) (peer : SocketAddr)
    (ephemeral : List β) :
    ∃ established wire, respondMessage1 prim server profile obfuscation datagram peer authorizer
    ephemeral = some (established, wire) ∧ established.peerStatic = key := by
  obtain ⟨bare, names, known, authorized, selection, negotiated, runnable⟩ := speaks
  obtain ⟨label, authorized⟩ := Option.isSome_iff_exists.mp authorized
  obtain ⟨s, e, read, role, peerEph, peerStatic⟩ :=
    NoiseHandshake.readMessage1_bare bare names long
  obtain ⟨enc, after, sealed, -⟩ := SymmetricState.seals lawful
    ((s.symmetric.mixHash prim (prim.publicKey ephemeral)).mixKey prim
      (prim.diffieHellman ephemeral e)) (prim.diffieHellman ephemeral key) (lits selection.encode)
  have written :=
    NoiseHandshake.writeMessage2_eq role peerEph peerStatic selection.suiteSchedule sealed
  have message2 := NoiseHandshake.responderMessage2_ok runnable written ⟨key, []⟩ peer label
  have hello : readHello prim server profile obfuscation datagram = some (⟨key, []⟩, s) := by
    simp only [readHello, framed, known]
    exact congrArg Except.toOption (NoiseHandshake.responderReadMessage1_ok read)
  simp only [respondMessage1, hello, authorized, List.map_nil, ClientOffer.decode, Except.toOption,
    Option.join_some, negotiated, message2]
  exact ⟨_, _, rfl, rfl⟩

theorem readHello_framed {hello : InitiatorHello β} {s : NoiseHandshake β}
    (framed : framedMessage1 profile obfuscation datagram = some msg1)
    (read : readHello prim server profile obfuscation datagram = some (hello, s)) :
    selectHandshake profile.kexName = .ok .noiseIk ∧
      (NoiseHandshake.new prim .responder server none).readMessage1 prim msg1 =
        .ok ((hello.peerStatic, hello.offer), s) := by
  simp only [readHello, framed] at read
  split at read
  · cases read
  · rename_i known
    refine ⟨known, ?_⟩
    simp only [NoiseHandshake.responderReadMessage1] at read
    split at read
    · cases read
    · rename_i opened
      cases read
      exact opened

/-- Without either secret, nothing else is answered as coming from the key. -/
theorem SpeaksFor.of_answered (attacker : Attacker prim knows) (client : ¬ knows clientSecret)
    (responder : ¬ knows server.secret)
    (framed : framedMessage1 profile obfuscation datagram = some msg1) (built : knows msg1)
    {peer : SocketAddr} {ephemeral wire : List β} {established : SessionEstablished β}
    (answered : respondMessage1 prim server profile obfuscation datagram peer authorizer ephemeral =
      some (established, wire))
    (spoken : established.peerStatic = prim.publicKey clientSecret) :
    SpeaksFor prim server profile authorizer msg1 (prim.publicKey clientSecret) := by
  simp only [respondMessage1] at answered
  cases hello : readHello prim server profile obfuscation datagram with
  | none => simp [hello] at answered
  | some result =>
      obtain ⟨⟨key, offer⟩, s⟩ := result
      simp only [hello] at answered
      cases authorized : authorize authorizer key with
      | none => simp [authorized] at answered
      | some label =>
          simp only [authorized] at answered
          split at answered
          · cases answered
          · rename_i selection negotiated
            split at answered
            · cases answered
            · rename_i m₂ session message2
              cases answered
              obtain ⟨same, -, runnable, -⟩ := NoiseHandshake.responderMessage2_session message2
              obtain rfl : key = prim.publicKey clientSecret := same.symm.trans spoken
              obtain ⟨known, read⟩ := readHello_framed framed hello
              obtain ⟨names, shape⟩ := NoiseHandshake.readMessage1_ok read
              rcases shape with ⟨bare, rfl⟩ | ⟨salt, nonce, ad, opened⟩
              · exact ⟨bare, names, known,
                  by rw [authorized]; rfl, selection, negotiated, runnable⟩
              · have key := attacker.sealed _ _ _ _ _ opened (attacker.cut _ _ built).2
                have secret := attacker.derived _ _ _ _ _ (by decide) key
                exact absurd (attacker.shared _ _ secret) (not_or_intro responder client)

/-! ## The server -/

namespace Server

variable {σ : Type} {ctx : ServerCtx σ} {s s₁ s' : Server σ}

/-- What a step leaves of the sessions of a key: none is evicted by the cap, none joins,
    and none is lost except to a session of another key under the same id. -/
structure Spares (s s' : Server σ) (key : Bytes) : Prop where
  evicted : s'.capEvicted.count key = s.capEvicted.count key
  joined : ∀ sid h, s'.sessions.lookup sid = some h → h.peerKey =
    key → s.sessions.lookup sid = some h
  kept : ∀ sid h, s.sessions.lookup sid = some h → h.peerKey = key → s'.sessions.lookup sid =
    some h ∨ ∃ h', s'.sessions.lookup sid = some h' ∧ h'.peerKey ≠ key

theorem Spares.of_same {key : Bytes} (sessions : s'.sessions = s.sessions)
    (capEvicted : s'.capEvicted = s.capEvicted) : Spares s s' key where
  evicted := by rw [capEvicted]
  joined sid h found _ := by rwa [sessions] at found
  kept sid h found _ := .inl (by rwa [sessions])

theorem evictOldestPeerSession_spares (order : IterOrder) {joining key : Bytes} (max : UInt8)
    (other : joining ≠ key) : Spares s (s.evictOldestPeerSession order joining max) key := by
  cases victim : s.capVictim order joining max with
  | none =>
      rw [evictOldestPeerSession_none victim]
      exact .of_same rfl rfl
  | some gone =>
      obtain ⟨h, found, own, -⟩ := capVictim_spec victim
      have still : (s.signalEvict h.task).sessions.lookup gone = some h := found
      have sessions : (s.evictOldestPeerSession order joining max).sessions =
        s.sessions.erase gone := by
        simp only [evictOldestPeerSession_victim victim found, removeSession, still]
        rfl
      refine ⟨?_, fun sid h' found' same => ?_, fun sid h' found' same => .inl ?_⟩
      · rw [evictOldestPeerSession_victim victim found, List.count_append,
          List.count_singleton, if_neg]
        · rfl
        · exact fun same => other (eq_of_beq same)
      · rw [sessions] at found'
        by_cases isGone : sid = gone
        · rw [isGone, AList.lookup_erase] at found'
          cases found'
        · rwa [AList.lookup_erase_ne isGone] at found'
      · have notGone : sid ≠ gone := by
          rintro rfl
          obtain rfl : h = h' := Option.some.inj (found.symm.trans found')
          exact other (own.symm.trans same)
        rwa [sessions, AList.lookup_erase_ne notGone]

theorem Spares.insert {key : Bytes} (spares : Spares s s₁ key) {sid₀ : SessionId}
    {h₀ : ClientHandle} (other : h₀.peerKey ≠ key)
    (sessions : s'.sessions = s₁.sessions.insert sid₀ h₀)
    (capEvicted : s'.capEvicted = s₁.capEvicted) : Spares s s' key where
  evicted := by rw [capEvicted, spares.evicted]
  joined sid h found same := by
    rw [sessions] at found
    by_cases isNew : sid = sid₀
    · rw [isNew, AList.lookup_insert] at found
      cases found
      exact absurd same other
    · rw [AList.lookup_insert_ne isNew] at found
      exact spares.joined sid h found same
  kept sid h found same := by
    rw [sessions]
    by_cases isNew : sid = sid₀
    · exact .inr ⟨h₀, by rw [isNew, AList.lookup_insert], other⟩
    · rw [AList.lookup_insert_ne isNew]
      exact spares.kept sid h found same

theorem handleHandshake_spares {env : ServerEnv} {msg1 : Bytes} {source : SocketAddr} {key : Bytes}
    (carrier : SessionCarrier)
    (others : ∀ established wire, s.respond ctx env msg1 source = some (established, wire) →
      established.peerStatic ≠ key) : Spares s
      (s.handleHandshake ctx env msg1 source carrier).2 key := by
  cases answered : s.respond ctx env msg1 source with
  | none =>
      have refused : s.Refused (s.handleHandshake ctx env msg1 source carrier) :=
        refused_of_no_answer answered
      exact .of_same refused.sessions refused.capEvicted
  | some answer =>
      obtain ⟨established, wire⟩ := answer
      have other := others established wire answered
      simp only [handleHandshake, answered]
      split
      · simp only [acceptHandshake]
        obtain ⟨evicted, joined, kept⟩ := evictOldestPeerSession_spares
          (s := { s with probes := s.probes ++ [msg1] }) env.order ctx.maxSessionsPerPeer other
        split
        · exact ⟨evicted, joined, kept⟩
        · rename_i resolved _
          have spawned := spawnClient_record ctx (evictOldestPeerSession env.order
            { s with probes := s.probes ++ [msg1] } established.peerStatic ctx.maxSessionsPerPeer)
              env carrier resolved established
            (extractHeaderXorKeystream ctx established.handshakeHash resolved.codec.maxHeaderLen)
          exact Spares.insert ⟨evicted, joined, kept⟩ other rfl spawned.capEvicted
      · exact .of_same rfl rfl

end Server

/-! ## The two together -/

/-- Without the secret of a client and without the responder's, every message 1 that an
    attacker can build is answered as coming from the client exactly when it names the
    client, carries no payload, and the responder answers the client without an offer.
    A server spares the sessions of a client as which it does not answer. -/
theorem impersonates_iff_bare (lawful : prim.Lawful) (attacker : Attacker prim knows)
    (client : ¬ knows clientSecret) (responder : ¬ knows server.secret) (built : knows msg1)
    (framed : framedMessage1 profile obfuscation datagram = some msg1) (peer : SocketAddr)
    (ephemeral : List β) :
    ((∀ established wire,
        respondMessage1 prim server profile obfuscation datagram peer authorizer ephemeral =
        some (established, wire) → established.peerStatic ≠ prim.publicKey clientSecret) ↔
      ¬ SpeaksFor prim server profile authorizer msg1 (prim.publicKey clientSecret)) ∧
    ∀ (σ : Type) (ctx : ServerCtx σ) (env : ServerEnv) (s : Server σ) (received : Bytes)
    (source : SocketAddr) (carrier : SessionCarrier) (key : Bytes),
        (∀ established wire, s.respond ctx env received source = some (established, wire) →
          established.peerStatic ≠ key) →
        s.Spares (s.handleHandshake ctx env received source carrier).2 key := by
  refine ⟨⟨fun never speaks => ?_, fun silent established wire answered spoken => ?_⟩, ?_⟩
  · obtain ⟨established, wire, answered, spoken⟩ :=
      speaks.answered lawful (lawful.publicKey_length _) framed peer ephemeral
    exact never established wire answered spoken
  · exact silent (.of_answered attacker client responder framed built answered spoken)
  · exact fun σ ctx env s received source carrier key others =>
      Server.handleHandshake_spares carrier others

/-- A secret that is kept from the attacker. -/
def keptSecret (value : UInt8) : List Marked := List.replicate 32 ⟨value, true, false⟩

/-- What an attacker who knows the two public keys writes: the message 1 of a client whose
    secret it does not have. -/
def forgedMessage1 : List Marked :=
  let keys : KeyPair Marked := ⟨[], NoisePrimitives.marked.publicKey (keptSecret 9)⟩
  let server := NoisePrimitives.marked.publicKey (keptSecret 2)
  match (NoiseHandshake.new .marked .initiator keys (some server)).writeMessage1 .marked
      (lits (List.replicate 32 3)) [] with
  | .ok (msg, _) => msg
  | .error _ => []

/-- The attacker is taken for the client. -/
theorem forged_message_accepted :
    Attacker .marked (fun xs => Marked.hidden xs = false) ∧ NoisePrimitives.marked.Lawful ∧
      ¬ Marked.hidden (keptSecret 9) = false ∧ ¬ Marked.hidden (keptSecret 2) = false ∧
      Marked.hidden forgedMessage1 = false ∧
      (respondMessage1 .marked (.generate .marked (keptSecret 2)) Server.lawfulServer.profile
        [] forgedMessage1 ⟨.v4 1, 1⟩ none (keptSecret 5)).map
      (fun answer => answer.1.peerStatic) =
      some (NoisePrimitives.marked.publicKey (keptSecret 9)) :=
  ⟨Marked.attacker, Marked.lawful, by decide, by decide, by decide +kernel, by decide +kernel⟩

/-- With anything after the static key it is not. -/
theorem forged_payload_refused :
    let msg1 := forgedMessage1 ++ lits (List.replicate 17 1)
    Marked.hidden msg1 = false ∧
      ∀ established wire,
        respondMessage1 .marked (.generate .marked (keptSecret 2)) Server.lawfulServer.profile
          [] msg1 ⟨.v4 1, 1⟩ none (keptSecret 5) = some (established, wire) →
        established.peerStatic ≠ NoisePrimitives.marked.publicKey (keptSecret 9) := by
  intro msg1
  have built : Marked.hidden msg1 = false := by decide +kernel
  have framed : framedMessage1 Server.lawfulServer.profile [] msg1 = some msg1 := by decide +kernel
  have longer : msg1.length ≠ MSG1_MIN := by decide +kernel
  have client : ¬ Marked.hidden (keptSecret 9) = false := by decide
  have responder : ¬ Marked.hidden (KeyPair.generate .marked (keptSecret 2)).secret = false :=
    by decide
  exact ⟨built,
    (impersonates_iff_bare Marked.lawful Marked.attacker client responder built framed
    ⟨.v4 1, 1⟩ (keptSecret 5)).1.mpr fun speaks => longer speaks.1⟩

end Rustnies
