import Rustnies.Protocol.ClientHandshake
import Rustnies.Server.Sessions
import Rustnies.Tunnel.Acknowledged
import Rustnies.Tunnel.Pairing

/-! # The session of a client

`daemon/mod.rs`: what `run_client` builds from a handshake that succeeded. With an
accepted handshake the client's tunnel and the task that the server spawns are the two
ends of one session: what the one seals, frames and wraps, the other unwraps and opens.
-/

namespace Rustnies

variable {σ τ : Type}

/-- What a client's configuration fixes for all its sessions. -/
structure ClientCtx (τ : Type) where
  call : ClientCall UInt8
  aead : Aead UInt8
  carrier : Carrier
  congestion : CongestionControl τ
  newCongestion : τ
  fecConfig : FecConfig

namespace ClientCtx

/-- The keystream of the whitening layer for a session. -/
def deriveKeystream (client : ClientCtx τ) (seed : Bytes) : Keystream UInt8 :=
  ⟨client.call.prim.hkdf [] seed (asciiBytes HKDF_INFO) HEADER_LEN,
    client.call.prim.hkdf_length ..⟩

/-- The configuration of a session; a client has no one to tell of a new address. -/
def sessionConfig (client : ClientCtx τ) (resolved : ResolvedProfile)
    (established : SessionEstablished UInt8) :
    Config τ where
  aead := client.aead
  sendKey := established.sendKey
  recvKey := established.recvKey
  sendDir := established.sendDir
  recvDir := established.recvDir
  codec := resolved.codec
  transport := resolved.transport
  obfuscation := client.call.obfuscation.init client.deriveKeystream established.handshakeHash
  fec := resolved.fec
  congestion := client.congestion
  supportsRoaming := client.carrier.supportsRoaming
  signalsRoaming := false
  sessionTimeout := SESSION_TIMEOUT

/-- The tunnel that the client runs, with its configuration. -/
def newTunnel (client : ClientCtx τ) (now : Instant) (established : SessionEstablished UInt8) :
    Except ProfileError (Config τ × Tunnel τ) :=
  match ResolvedProfile.withHandshakeTransport established.selection
    client.call.profile.handshakeTransport with
  | .error e => .error e
  | .ok resolved =>
      let cfg := client.sessionConfig resolved established
      let session := Session.new established.sessionId .initiator
      .ok (cfg, (Tunnel.fromHandshake established.peer session client.newCongestion
        now).configureFec cfg client.fecConfig)

/-- A client set up for a server: it knows the server's key, and the operators gave both
    the same envelope and the same layers. -/
structure SetUpFor (client : ClientCtx τ) (server : ServerCtx σ) (initiator responder : Bytes) :
    Prop where
  prim : client.call.prim = server.prim
  aead : client.aead = server.aead
  own : client.call.clientKp = .generate server.prim initiator
  known : client.call.serverPub = server.prim.publicKey responder
  served : server.serverKp = .generate server.prim responder
  transport : client.call.profile.handshakeTransport = server.profile.handshakeTransport
  obfuscation : client.call.obfuscation = server.obfStack

/-- The datagram around a handshake message. -/
def envelope (client : ClientCtx τ) (message : Bytes) : Bytes :=
  client.call.profile.handshakeTransport.wrap (client.call.obfuscation.apply message)

end ClientCtx

/-- A tunnel of which nothing has come out. -/
structure Tunnel.Unused (t : Tunnel σ) : Prop where
  new : End.New ⟨t, []⟩
  unparked : t.pendingOut = none
  unwritten : t.tunWrites = []

theorem Tunnel.fromHandshake_unused (cfg : Config σ) (peer : SocketAddr) (id : SessionId)
    (role : SessionRole) (congestion : σ) (now : Instant) (fc : FecConfig) :
    ((Tunnel.fromHandshake peer (.new id role) congestion now).configureFec cfg fc).Unused := by
  obtain ⟨fec, params, same⟩ :=
    Tunnel.configureFec_eq cfg (Tunnel.fromHandshake peer (.new id role) congestion now) fc
  refine ⟨End.new_fromHandshake cfg peer id role congestion now fc, ?_, ?_⟩
  · rw [same]
    rfl
  · rw [same]
    rfl

/-- The two ends of a session that has just begun: each receives what the other sends, and
    nothing has come out of either. -/
structure Paired (cfg : Config τ) (tunnel : Tunnel τ) (t : Task σ) : Prop where
  hears : cfg.Receives t.cfg
  heard : t.cfg.Receives cfg
  session : tunnel.session.id = t.tunnel.session.id
  client : tunnel.Unused
  server : t.tunnel.Unused
  untaken : t.routed = t.tunRx

/-! ## The handshake as the server sees it -/

section Handshake

variable {server : ServerCtx σ} {client : ClientCtx τ} {initiator responder : Bytes}
  {m₁ : Bytes}

theorem framedMessage1_envelope (setUp : client.SetUpFor server initiator responder)
    (short : (server.obfStack.apply m₁).length < 65536) :
    framedMessage1 server.profile server.obfStack (client.envelope m₁) =
      if m₁.length < MSG1_MIN then none else some m₁ := by
  rw [framedMessage1, ClientCtx.envelope, setUp.transport, setUp.obfuscation, Transport.unwrap_wrap]
  simp only
  rw [ObfuscationStack.reverse_apply _ short]

theorem answer_of_respondMessage1 (setUp : client.SetUpFor server initiator responder)
    (short : (server.obfStack.apply m₁).length < 65536) {peer : SocketAddr}
    {authorizer : Option (Authorizer UInt8)} {ephemeral wire : Bytes}
    {established : SessionEstablished UInt8}
    (answered : respondMessage1 server.prim server.serverKp server.profile server.obfStack
      (client.envelope m₁) peer authorizer ephemeral = some (established, wire)) :
    ∃ m₂ label, NoiseHandshake.answer server.prim responder m₁ ephemeral established.selection
    peer label = .ok (m₂, established) ∧ wire = client.envelope m₂ := by
  simp only [respondMessage1, readHello, framedMessage1_envelope setUp short] at answered
  by_cases tooShort : m₁.length < MSG1_MIN
  · simp [tooShort] at answered
  rw [if_neg tooShort] at answered
  cases kex : selectHandshake server.profile.kexName with
  | error e => simp [kex] at answered
  | ok kind =>
      cases kind
      simp only [kex] at answered
      rw [setUp.served] at answered
      cases read : (NoiseHandshake.new server.prim .responder (.generate server.prim responder)
          none).responderReadMessage1 server.prim m₁ with
      | error e => simp [read, Except.toOption] at answered
      | ok hello =>
          obtain ⟨hello, hs⟩ := hello
          simp only [read, Except.toOption] at answered
          cases authorized : authorize authorizer hello.peerStatic with
          | none => simp [authorized] at answered
          | some label =>
              simp only [authorized] at answered
              split at answered
              · cases answered
              · rename_i selection _
                split at answered
                · cases answered
                · rename_i _ m₂ _ writes
                  cases answered
                  obtain ⟨-, selected, -⟩ := NoiseHandshake.responderMessage2_session writes
                  refine ⟨m₂, label, ?_, ?_⟩
                  · rw [NoiseHandshake.answer_eq read, selected]
                    exact writes
                  · rw [ClientCtx.envelope, setUp.transport, setUp.obfuscation]

theorem sessionConfig_receives (setUp : client.SetUpFor server initiator responder)
    (opens : ∀ {key nonce aad message ciphertext}, server.aead.encrypt key nonce aad message =
      some ciphertext → server.aead.decrypt key nonce aad ciphertext = some message)
    {established answered : SessionEstablished UInt8} (agree : established.Agree answered)
    (resolved : ResolvedProfile)
    (env : ServerEnv) (carrier : SessionCarrier) :
    (client.sessionConfig resolved established).Receives
    (Server.newTask server env carrier resolved answered).cfg ∧
    (Server.newTask server env carrier resolved answered).cfg.Receives
    (client.sessionConfig resolved established) := by
  have keystream : client.deriveKeystream = server.deriveKeystream := by
    funext seed
    exact Subtype.ext (congrArg (fun prim : NoisePrimitives UInt8 =>
      prim.hkdf [] seed (asciiBytes HKDF_INFO) HEADER_LEN) setUp.prim)
  have layers : (client.sessionConfig resolved established).obfuscation =
      (Server.newTask server env carrier resolved answered).cfg.obfuscation := by
    simp only [ClientCtx.sessionConfig, Server.newTask, keystream, setUp.obfuscation,
      agree.handshakeHash]
  refine ⟨⟨rfl, rfl, layers, rfl, agree.recvDir, ?_⟩,
    ⟨rfl, rfl, layers.symm, rfl, agree.sendDir.symm, ?_⟩⟩
  · intro nonce aad message ciphertext encrypted
    simp only [ClientCtx.sessionConfig, Server.newTask, setUp.aead, agree.recvKey] at encrypted ⊢
    exact opens encrypted
  · intro nonce aad message ciphertext encrypted
    simp only [ClientCtx.sessionConfig, Server.newTask, setUp.aead, agree.sendKey] at encrypted ⊢
    exact opens encrypted

end Handshake

namespace Server

variable {server : ServerCtx σ} {client : ClientCtx τ} {initiator responder m₁ : Bytes}
  {s : Server σ} {env : ServerEnv} {source : SocketAddr} {carrier : SessionCarrier}

theorem spawnClient_task (owned : s.Owned) (resolved : ResolvedProfile)
    (established : SessionEstablished UInt8) (keystream : Option Bytes) :
    (s.spawnClient server env carrier resolved established keystream).tasks[s.tasks.length]? =
      some (newTask server env carrier resolved established) := by
  have added : (s.tasks ++ [newTask server env carrier resolved established])[s.tasks.length]? =
      some (newTask server env carrier resolved established) := by simp
  simp only [spawnClient, insertSession, removeSession]
  cases found : s.sessions.lookup established.sessionId with
  | none => exact added
  | some h =>
      obtain ⟨t, isTask, -⟩ := owned _ h found
      have inside := (List.getElem?_eq_some_iff.mp isTask).1
      exact (updateTask_tasks_ne _ (Nat.ne_of_lt inside)).trans added

/-- What an accepted handshake went through: the reply that was sent, and the task that was
    spawned for it. -/
theorem handleHandshake_accepted (owned : s.Owned) {msg1 : Bytes}
    (accepted : (s.handleHandshake server env msg1 source carrier).1 = true) :
    ∃ answered wire resolved i, s.respond server env msg1 source = some (answered, wire) ∧
      env.sendOk wire source = true ∧
      ResolvedProfile.withHandshakeTransport answered.selection server.profile.handshakeTransport =
      .ok resolved ∧ s.tasks.length ≤ i ∧
      (s.handleHandshake server env msg1 source carrier).2.tasks[i]? =
      some (newTask server env carrier resolved answered) := by
  unfold handleHandshake at accepted ⊢
  cases responded : s.respond server env msg1 source with
  | none => simp [responded] at accepted
  | some answer =>
      obtain ⟨answered, wire⟩ := answer
      simp only [responded] at accepted ⊢
      cases sent : env.sendOk wire source with
      | false => simp [sent] at accepted
      | true =>
          rw [sent, if_pos rfl] at accepted
          rw [if_pos rfl]
          have probed : Owned { s with probes := s.probes ++ [msg1] } := owned
          have evicted :=
            evictOldestPeerSession_evolves server .any { s with probes := s.probes ++ [msg1] }
            env.order answered.peerStatic server.maxSessionsPerPeer
          unfold acceptHandshake at accepted ⊢
          cases resolve : ResolvedProfile.withHandshakeTransport answered.selection
            server.profile.handshakeTransport with
          | error e => simp [resolve] at accepted
          | ok resolved =>
              exact ⟨answered, wire, resolved, _, rfl, sent, resolve, evicted.length_le,
                spawnClient_task (probed.evolves evicted) resolved answered
                  (extractHeaderXorKeystream server answered.handshakeHash
                    resolved.codec.maxHeaderLen)⟩

end Server

/-! ## Both sides -/

theorem configureFec_session (cfg : Config τ) (t : Tunnel τ) (fc : FecConfig) :
    (t.configureFec cfg fc).session = t.session := by
  obtain ⟨fec, params, same⟩ := Tunnel.configureFec_eq cfg t fc
  rw [same]

theorem Transport.length_le_wrap (transport : Transport) (frame : Bytes) :
    frame.length ≤ (transport.wrap frame).length := by
  cases transport with
  | plain => exact Nat.le_refl _
  | tagged first second => simp [Transport.wrap]

theorem NoiseHandshake.clientFinalize_length {prim : NoisePrimitives UInt8}
    {hs : NoiseHandshake UInt8} {m₂ : Bytes} {peer : SocketAddr} {est : SessionEstablished UInt8}
    (finalized : hs.clientFinalize prim m₂ peer = .ok est) :
    MSG2_MIN ≤ m₂.length := by
  by_contra short
  have tooShort : m₂.length < 32 + TAG_LEN := Nat.lt_of_not_le short
  have read : ∃ e, hs.readMessage2 prim m₂ payloadSchedule = .error e := by
    unfold readMessage2
    by_cases role : hs.role ≠ .initiator
    · exact ⟨_, if_pos role⟩
    · exact ⟨_, (if_neg role).trans (if_pos tooShort)⟩
  obtain ⟨e, failed⟩ := read
  rw [clientFinalize, failed] at finalized
  cases finalized

theorem NoisePrimitives.Lawful.opens {prim : NoisePrimitives UInt8} (lawful : prim.Lawful)
    {key nonce aad message ciphertext : Bytes}
    (encrypts : prim.aead.encrypt key nonce aad message = some ciphertext) :
    prim.aead.decrypt key nonce aad ciphertext = some message := by
  obtain ⟨c, encrypted, decrypted, -⟩ := lawful.seals key nonce aad message
  cases encrypted.symm.trans encrypts
  exact decrypted

namespace ClientCtx

variable {server : ServerCtx σ} {client : ClientCtx τ} {initiator responder m₁ : Bytes}
  {s : Server σ}

theorem newTunnel_paired (setUp : client.SetUpFor server initiator responder)
    (opens : ∀ {key nonce aad message ciphertext}, server.aead.encrypt key nonce aad message =
      some ciphertext → server.aead.decrypt key nonce aad ciphertext = some message)
    {established answered : SessionEstablished UInt8} (agree : established.Agree answered)
    {resolved : ResolvedProfile}
    (resolve : ResolvedProfile.withHandshakeTransport answered.selection
      server.profile.handshakeTransport = .ok resolved)
    (env : ServerEnv) (carrier : SessionCarrier) (now : Instant) : ∃ cfg tunnel,
      client.newTunnel now established = .ok (cfg, tunnel) ∧
      Paired cfg tunnel (Server.newTask server env carrier resolved answered) := by
  rw [← setUp.transport, ← agree.selection] at resolve
  obtain ⟨hears, heard⟩ := sessionConfig_receives setUp opens agree resolved env carrier
  refine ⟨_, _, by rw [newTunnel, resolve], hears, heard, ?_, Tunnel.fromHandshake_unused ..,
    Tunnel.fromHandshake_unused .., rfl⟩
  have session : (Server.newTask server env carrier resolved answered).tunnel.session =
      .new answered.sessionId .responder := configureFec_session ..
  rw [configureFec_session, session]
  exact agree.sessionId

/-- A handshake that the server accepts makes a session of two matching ends. Let the client
    be set up for the server, and let the primitives be lawful. Then the reply that the
    server sends completes the client's attempt, and the tunnel that the client runs and
    the task that the server spawned receive each other, under one session id and with
    nothing sent or heard. -/
theorem handshake_pairs (setUp : client.SetUpFor server initiator responder)
    (lawful : server.prim.Lawful)
    (opens : ∀ {key nonce aad message ciphertext}, server.aead.encrypt key nonce aad message =
      some ciphertext → server.aead.decrypt key nonce aad ciphertext = some message)
    (reachable : Server.Reachable server s) {attempt : Attempt UInt8} {hs : NoiseHandshake UInt8}
    (write : client.call.message1 attempt = .ok (m₁, hs))
    (short : (server.obfStack.apply m₁).length < 65536)
    {env : ServerEnv} {source : SocketAddr} {carrier : SessionCarrier}
    (accepted : (s.handleHandshake server env (client.envelope m₁) source carrier).1 = true) :
    ∃ answered wire i t, s.respond server env (client.envelope m₁) source =
    some (answered, wire) ∧ env.sendOk wire source = true ∧ s.tasks.length ≤ i ∧
      (s.handleHandshake server env (client.envelope m₁) source carrier).2.tasks[i]? = some t ∧
      (wire.length < 65536 → ∃ est, client.call.conclude hs (.message wire client.call.server) =
        some (.ok est) ∧ est.Agree answered ∧
        ∀ now, ∃ cfg tunnel, client.newTunnel now est = .ok (cfg, tunnel) ∧
        Paired cfg tunnel t) := by
  obtain ⟨answered, wire, resolved, i, responded, sent, resolve, fresh, isTask⟩ :=
    Server.handleHandshake_accepted reachable.owned accepted
  obtain ⟨m₂, label, answer, rfl⟩ := answer_of_respondMessage1 setUp short responded
  refine ⟨answered, _, i, _, responded, sent, fresh, isTask, fun fits => ?_⟩
  have wrote := write
  rw [ClientCall.message1, setUp.own, setUp.known, setUp.prim] at wrote
  obtain ⟨runnable, est, finalize, selected, agree⟩ :=
    NoiseHandshake.clientFinalize_answer lawful wrote answer client.call.server
  have unwraps : client.call.unwrapMessage2 (client.envelope m₂) = some m₂ := by
    have inner : (client.call.obfuscation.apply m₂).length < 65536 :=
      Nat.lt_of_le_of_lt (client.call.profile.handshakeTransport.length_le_wrap _) fits
    rw [ClientCall.unwrapMessage2, envelope, Transport.unwrap_wrap]
    simp only [ObfuscationStack.reverse_apply _ inner]
    exact if_neg (Nat.not_lt_of_le (NoiseHandshake.clientFinalize_length finalize))
  refine ⟨est, ?_, agree, newTunnel_paired setUp opens agree resolve env carrier⟩
  rw [← setUp.prim] at finalize
  simp only [ClientCall.conclude, ne_eq, not_true_eq_false, if_false, unwraps, finalize,
    selected, runnable]

/-! ## One client and its server -/

/-- A server over lawful primitives. -/
def sampleServer : ServerCtx Unit := { ServerCtx.small .udp 0 with
  prim := .summing
  aead := NoisePrimitives.summing.aead
  serverKp := .generate .summing [2] }

def sample : ClientCtx Unit where
  call := {
    prim := .summing
    server := ⟨.v4 1, 51820⟩
    clientKp := .generate .summing [1]
    serverPub := NoisePrimitives.summing.publicKey [2]
    profile := sampleServer.profile
    obfuscation := [] }
  aead := NoisePrimitives.summing.aead
  carrier := .udp
  congestion := noCongestionControl
  newCongestion := ()
  fecConfig := ⟨8, 0, 4, 2⟩

theorem sample_setUp : sample.SetUpFor sampleServer [1] [2] :=
  ⟨rfl, rfl, rfl, rfl, rfl, rfl, rfl⟩

/-- Message 1 of the client's first attempt. -/
def sampleMessage1 : Bytes :=
  match sample.call.message1 ⟨[3], true, .timedOut⟩ with
  | .ok (m₁, _) => m₁
  | .error _ => []

/-- A server that has just started answers the client, and the two ends match. -/
theorem sample_pairs : ∃ t cfg tunnel est,
    (Server.handleHandshake sampleServer (.small 1 5) (Server.init 0 .openMode)
      (sample.envelope sampleMessage1) ⟨.v4 9, 1⟩ .shared).2.tasks[0]? = some t ∧
    sample.newTunnel 2 est = .ok (cfg, tunnel) ∧ Paired cfg tunnel t := by
  obtain ⟨hs, write⟩ : ∃ hs, sample.call.message1 ⟨[3], true, .timedOut⟩ =
    .ok (sampleMessage1, hs) := ⟨_, rfl⟩
  have accepted :
    (Server.handleHandshake sampleServer (.small 1 5) (Server.init 0 .openMode : Server Unit)
    (sample.envelope sampleMessage1) ⟨.v4 9, 1⟩ .shared).1 = true := by decide +kernel
  have short : ((Server.respond sampleServer (.small 1 5) (Server.init 0 .openMode : Server Unit)
      (sample.envelope sampleMessage1) ⟨.v4 9, 1⟩).all fun answer =>
      decide (answer.2.length < 65536)) = true := by
    decide +kernel
  have single :
    (Server.handleHandshake sampleServer (.small 1 5) (Server.init 0 .openMode : Server Unit)
    (sample.envelope sampleMessage1) ⟨.v4 9, 1⟩ .shared).2.tasks.length = 1 := by decide +kernel
  obtain ⟨answered, wire, i, t, responded, -, -, isTask, completes⟩ :=
    handshake_pairs sample_setUp NoisePrimitives.summing_lawful NoisePrimitives.summing_lawful.opens
      ⟨0, .openMode, [], rfl⟩ write (by decide +kernel) accepted
  obtain rfl : i = 0 := by
    have inside := (List.getElem?_eq_some_iff.mp isTask).1
    omega
  rw [responded, Option.all_some] at short
  obtain ⟨est, -, -, built⟩ := completes (of_decide_eq_true short)
  obtain ⟨cfg, tunnel, opened, paired⟩ := built 2
  exact ⟨t, cfg, tunnel, est, isTask, opened, paired⟩

end ClientCtx

end Rustnies
