import Rustnies.Server.Effects
import Rustnies.Server.Whitening
import Rustnies.Tunnel.Arrival

/-! # Routing a session's own frames

The dispatcher peeks at a datagram in three ways: as it is, without the envelope of the
handshake's transport, and de-whitened with the keystream of each session. That finds the
session of every frame whose layers only whiten, in the transport of the handshake. A
padding layer is not undone, nor is another transport that the session negotiated: such a
frame comes from a new address as noise.
-/

namespace Rustnies

namespace ObfuscationStack

/-- An odd number of whitening layers: an even number undoes itself. -/
def whitens : ObfuscationStack UInt8 → Bool
  | [] => false
  | .headerXor _ :: stack => !whitens stack
  | _ :: stack => whitens stack

theorem apply_init_unpadded (derive : Bytes → Keystream UInt8) (seed : Bytes)
    {stack : ObfuscationStack UInt8} (unpadded : ∀ p, .padding p ∉ stack) (frame : Bytes) :
    (stack.init derive seed).apply frame = if stack.whitens then xorHeader (derive seed) frame
    else frame := by
  induction stack generalizing frame with
  | nil => rfl
  | cons layer stack ih =>
      have rest := ih fun p member => unpadded p (List.mem_cons_of_mem _ member)
      cases layer with
      | padding p => exact absurd List.mem_cons_self (unpadded p)
      | timing => exact rest frame
      | headerXor keystream =>
          refine (rest (xorHeader (derive seed) frame)).trans ?_
          rw [whitens]
          cases whitens stack with
          | true => exact xorHeader_xorHeader (derive seed) frame
          | false => rfl

theorem exists_whitening {stack : ObfuscationStack UInt8} (whitens : stack.whitens = true) :
    stack.active = true ∧ stack.any (·.name == "header_xor") = true := by
  induction stack with
  | nil => cases whitens
  | cons layer stack ih =>
      refine ⟨rfl, ?_⟩
      cases layer with
      | headerXor keystream => rfl
      | padding p => exact (Bool.or_eq_true_iff ..).mpr (.inr (ih whitens).2)
      | timing => exact (Bool.or_eq_true_iff ..).mpr (.inr (ih whitens).2)

theorem eq_of_undoes {stack stack' : ObfuscationStack UInt8}
    (undoes : List.Forall₂ ObfuscationLayer.Undoes stack stack')
    (unpadded : ∀ p, .padding p ∉ stack') : stack = stack' := by
  induction undoes with
  | nil => rfl
  | @cons layer layer' stack stack' first rest ih =>
      rw [ih fun p member => unpadded p (List.mem_cons_of_mem _ member)]
      cases first with
      | padding p p' => exact absurd List.mem_cons_self (unpadded p')
      | timing => rfl
      | headerXor keystream => rfl

end ObfuscationStack

theorem mem_init {derive : Bytes → Keystream UInt8} {seed : Bytes}
    {stack : ObfuscationStack UInt8} {p : SizePadding}
    (member : .padding p ∈ stack.init derive seed) : .padding p ∈ stack := by
  obtain ⟨layer, inside, same⟩ := List.mem_map.mp member
  cases layer with
  | padding p' => exact same ▸ inside
  | timing => cases same
  | headerXor keystream => cases same

namespace Server

variable {σ τ : Type} {ctx : ServerCtx σ} {s : Server σ}

/-! ## Sessions and their keystreams -/

/-- Every session has a task that runs it, and the keystream that comes from the seed of the
    task's layers. -/
def Keyed (ctx : ServerCtx σ) (s : Server σ) : Prop :=
  ∀ sid h, s.sessions.lookup sid = some h →
    ∃ t, s.tasks[h.task]? = some t ∧ t.sessionId = sid ∧ Opens ctx sid h t

theorem Keyed.evolves {s' : Server σ} {scope : Scope} (keyed : Keyed ctx s)
    (evolves : Evolves ctx scope s s') :
    Keyed ctx s' := by
  intro sid h' found
  rcases evolves.sessions found with ⟨h, before, moves⟩ | ⟨h, t', -, -, moves, -,
    isTask, own, opens⟩
  · obtain ⟨t, isTask, own, opens⟩ := keyed sid h before
    obtain ⟨t', isTask', later⟩ := evolves.tasks isTask
    refine ⟨t', ?_, later.identity.2.1.trans own, opens.moves moves later⟩
    rw [HandleMoves.task moves]
    exact isTask'
  · exact ⟨t', isTask, own, opens.moves moves .refl⟩

theorem Reachable.keyed (reachable : Reachable ctx s) : Keyed ctx s := by
  obtain ⟨now, peerAuth, events, ran⟩ := reachable
  refine Keyed.evolves (fun sid h found => ?_) (run_evolves ctx _ ran)
  rw [init, AList.lookup_empty] at found
  cases found

theorem Reachable.aead (reachable : Reachable ctx s) {i : Nat} {t : Task σ}
    (isTask : s.tasks[i]? = some t) :
    t.cfg.aead = ctx.aead := by
  obtain ⟨now, peerAuth, events, ran⟩ := reachable
  obtain ⟨env, carrier, resolved, established, moves⟩ :=
    (run_evolves ctx _ ran).spawned (Nat.zero_le i) isTask
  rw [moves.identity.1]
  rfl

/-! ## What the dispatcher reads -/

/-- The frame names the session, or it does without the keystream that is kept for it. -/
def Names (s : Server σ) (frame : Bytes) (sid : SessionId) : Prop :=
  s.peekLive frame = some sid ∨
    ∃ h keystream, s.sessions.lookup sid = some h ∧ h.pubRouteKeystream = some keystream ∧
      s.peekLive (dewhiten frame keystream) = some sid

/-- No other live session's id is read before that of the session: in the datagram as it is,
    then without its envelope, then de-whitened with the keystream of some session. -/
structure Unclaimed (s : Server σ) (transport : Transport) (datagram : Bytes) (sid : SessionId) :
    Prop where
  plain {other : SessionId} (read : s.peekLive datagram = some other) : other = sid
  unwrapped {frame : Bytes} {other : SessionId} (no : s.peekLive datagram = none)
    (inside : transport.unwrap datagram = .ok frame)
      (read : s.peekLive frame = some other) : other = sid
  dewhitened {frame keystream : Bytes} {reader other : SessionId} {h : ClientHandle}
    (no : s.peekLive datagram = none) (inside : transport.unwrap datagram = .ok frame)
    (still : s.peekLive frame = none) (found : s.sessions.lookup reader = some h)
    (kept : h.pubRouteKeystream = some keystream)
    (read : s.peekLive (dewhiten frame keystream) = some other) : other = sid

theorem mem_arranged {order : IterOrder} {e : Sigma fun _ : SessionId => ClientHandle} :
    e ∈ order.arrange s.sessions.entries ↔ s.sessions.lookup e.1 = some e.2 :=
  (order.perm _).mem_iff.trans AList.mem_lookup_iff.symm

theorem routed_of_peekLive {datagram : Bytes} {sid : SessionId}
    (read : s.peekLive datagram = some sid) (order : IterOrder) (transport : Transport) :
    s.peekRoutedSession order transport datagram = some sid := by
  simp only [peekRoutedSession, read]

/-- Whatever the order of the sessions, a datagram with a frame that names a session is
    routed to it, unless it is claimed. -/
theorem routed_of_unclaimed {transport : Transport} {datagram frame : Bytes} {sid : SessionId}
    (unclaimed : s.Unclaimed transport datagram sid)
    (inside : transport.unwrap datagram = .ok frame) (names : s.Names frame sid)
    (order : IterOrder) :
    s.peekRoutedSession order transport datagram = some sid := by
  cases first : s.peekLive datagram with
  | some other =>
      obtain rfl := unclaimed.plain first
      exact routed_of_peekLive first order transport
  | none =>
      simp only [peekRoutedSession, first, inside]
      cases second : s.peekLive frame with
      | some other => exact congrArg some (unclaimed.unwrapped first inside second)
      | none =>
          rcases names with clear | ⟨h, keystream, found, kept, read⟩
          · rw [second] at clear
            cases clear
          · have reads : ((order.arrange s.sessions.entries).findSome? fun e =>
                e.2.pubRouteKeystream.bind fun keystream =>
                  s.peekLive (dewhiten frame keystream)).isSome = true := by
              refine List.findSome?_isSome_iff.mpr ⟨⟨sid, h⟩, mem_arranged.mpr found, ?_⟩
              simp only [kept, Option.bind_some, read, Option.isSome_some]
            obtain ⟨other, result⟩ := Option.isSome_iff_exists.mp reads
            obtain ⟨e, member, read⟩ := List.exists_of_findSome?_eq_some result
            obtain ⟨keystream, kept, read⟩ := Option.bind_eq_some_iff.mp read
            obtain rfl :=
              unclaimed.dewhitened first inside second (mem_arranged.mp member) kept read
            exact result

theorem peekLive_of_peek {frame : Bytes} {sid : SessionId} {h : ClientHandle}
    (found : s.sessions.lookup sid = some h) (named : sid ≠ 0)
    (peeked : peekAnySessionId frame = some sid) : s.peekLive frame = some sid := by
  simp [peekLive, peekSessionId, peeked, Option.filter, named, found]

/-! ## Handing over -/

/-- The datagram is at the end of the task's channel; the other tasks, the limiter and the
    handshake saw nothing of it. -/
structure Handed (s s' : Server σ) (i : Nat) (t : Task σ) (datagram : Bytes)
    (source : SocketAddr) : Prop where
  own : s'.tasks[i]? = some { t with
    udpRx := t.udpRx ++ [(datagram, source)]
    handed := t.handed ++ [(datagram, source)] }
  others : ∀ j, j ≠ i → s'.tasks[j]? = s.tasks[j]?
  limiter : s'.probeLimiter = s.probeLimiter
  probes : s'.probes = s.probes

theorem handed_of_routed {env : ServerEnv} {datagram : Bytes} {source : SocketAddr}
    {sid : SessionId} {h : ClientHandle} {t : Task σ} (found : s.sessions.lookup sid = some h)
    (isTask : s.tasks[h.task]? = some t) (running : t.closed = false)
    (room : t.udpRx.length < PER_CLIENT_CHAN)
    (routed : s.peekRoutedSession env.order ctx.profile.handshakeTransport datagram = some sid) :
    Handed s (s.dispatchDatagram ctx env datagram source) h.task t datagram source := by
  have free : (t.closed || decide (PER_CLIENT_CHAN ≤ t.udpRx.length)) = false := by
    rw [running, Bool.false_or, decide_eq_false_iff_not]
    omega
  simp only [dispatchDatagram, routed, Option.bind_some, forward, found, isTask, free,
    Bool.false_eq_true, if_false]
  refine ⟨?_, fun j other => ?_, rfl, rfl⟩
  · simp [updateTask, setHandle, isTask]
  · simp [updateTask, setHandle, other.symm]

/-! ## A session's own frames -/

/-- The client's end of a session: what the handshake agreed on, and layers that the task's
    own undo. -/
structure ClientEnd (t : Task σ) (cfg : Config τ) : Prop where
  aead : cfg.aead = t.cfg.aead
  sendKey : cfg.sendKey = t.cfg.recvKey
  recvKey : cfg.recvKey = t.cfg.sendKey
  sendDir : cfg.sendDir = t.cfg.recvDir
  recvDir : cfg.recvDir = t.cfg.sendDir
  codec : cfg.codec = t.cfg.codec
  transport : cfg.transport = t.cfg.transport
  layers : List.Forall₂ ObfuscationLayer.Undoes cfg.obfuscation t.cfg.obfuscation

/-- Neither an envelope nor a keystream hides the headers of the session's frames. -/
def InTheClear (ctx : ServerCtx σ) (t : Task σ) : Prop :=
  t.cfg.transport = .plain ∧ ctx.obfStack.whitens = false

/-- The dispatcher undoes what the session's frames are wrapped in: no padding, and the
    transport of the handshake, unless the headers are in the clear. -/
structure Peekable (ctx : ServerCtx σ) (t : Task σ) : Prop where
  unpadded : ∀ p, ObfuscationLayer.padding p ∉ ctx.obfStack
  transport : t.cfg.transport = ctx.profile.handshakeTransport ∨ InTheClear ctx t

theorem wrapFrame_of_peekable {t : Task σ} {seed : Bytes}
    (layers : t.cfg.obfuscation = ctx.obfStack.init ctx.deriveKeystream seed)
    (peekable : Peekable ctx t) {cfg : Config τ} (client : ClientEnd t cfg) (frame : Bytes) :
    cfg.wrapFrame frame = t.cfg.transport.wrap
      (if ctx.obfStack.whitens then xorHeader (ctx.deriveKeystream seed) frame else frame) := by
  have unpadded : ∀ p, .padding p ∉ t.cfg.obfuscation := fun p member =>
    peekable.unpadded p (mem_init (layers ▸ member))
  rw [Config.wrapFrame, client.transport, ObfuscationStack.eq_of_undoes client.layers unpadded,
    layers, ObfuscationStack.apply_init_unpadded _ _ peekable.unpadded]

theorem exists_routing (whitens : ctx.obfStack.whitens = true) (seed : Bytes) (headerLen : Nat) :
    ∃ routing, extractHeaderXorKeystream ctx seed headerLen = some routing := by
  obtain ⟨active, listed⟩ := ObfuscationStack.exists_whitening whitens
  refine ⟨ctx.prim.hkdf [] seed (asciiBytes HKDF_INFO) headerLen, ?_⟩
  rw [extractHeaderXorKeystream, active, listed]
  rfl

theorem peekAnySessionId_encodeFrame (codec : FrameCodec) {hdr : PacketHeader}
    (version : hdr.version = PROTOCOL_VERSION) (body : Bytes) :
    peekAnySessionId (codec.encodeFrame hdr body) = some hdr.sessionId := by
  obtain ⟨rest, isFrame⟩ := codec.exists_encodeFrame_eq hdr body
  rw [isFrame]
  apply codec.peekAnySessionId_routeFront version
  rw [← isFrame, FrameCodec.encodeFrame, List.length_append]
  omega

theorem peekLive_encodeFrame {sid : SessionId} {h : ClientHandle} {t : Task σ}
    (found : s.sessions.lookup sid = some h) (opens : Opens ctx sid h t) {hdr : PacketHeader}
    (version : hdr.version = PROTOCOL_VERSION) (own : hdr.sessionId = sid) (ciphertext : Bytes) :
    s.peekLive (t.cfg.codec.encodeFrame hdr ciphertext) = some sid := by
  apply peekLive_of_peek found opens.named
  rw [← own]
  exact peekAnySessionId_encodeFrame t.cfg.codec version ciphertext

theorem names_own (consistent : ∀ salt ikm info n m, n ≤ m →
      ctx.prim.hkdf salt ikm info n = (ctx.prim.hkdf salt ikm info m).take n)
    {sid : SessionId} {h : ClientHandle} {t : Task σ} (found : s.sessions.lookup sid = some h)
    (opens : Opens ctx sid h t) {seed : Bytes}
    (extracted : h.pubRouteKeystream = extractHeaderXorKeystream ctx seed t.cfg.codec.maxHeaderLen)
    {hdr : PacketHeader} (version : hdr.version = PROTOCOL_VERSION) (own : hdr.sessionId = sid)
    {ciphertext : Bytes}
    (long : TAG_LEN ≤ ciphertext.length) :
    s.Names (if ctx.obfStack.whitens
      then xorHeader (ctx.deriveKeystream seed) (t.cfg.codec.encodeFrame hdr ciphertext)
      else t.cfg.codec.encodeFrame hdr ciphertext) sid := by
  cases whitens : ctx.obfStack.whitens with
  | false => exact .inl (peekLive_encodeFrame found opens version own ciphertext)
  | true =>
      obtain ⟨routing, isRouting⟩ := exists_routing whitens seed t.cfg.codec.maxHeaderLen
      have starts := take_of_extracted ctx consistent isRouting
      have read := peekAnySessionId_dewhiten starts t.cfg.codec version long
      rw [own] at read
      exact .inr ⟨h, routing, found, extracted.trans isRouting,
        peekLive_of_peek found opens.named read⟩

/-- Let the longer output of the key derivation start with the shorter one, and let every
    ciphertext have a tag. In every state that the server reaches, a frame that the client's
    tunnel of a live session emitted goes into the session's own channel, whatever the
    source and the limiter, if the dispatcher undoes what the frame is wrapped in and, where
    the header is not in the clear, no other live session's id is read before. -/
theorem emitted_frame_handed (consistent : ∀ salt ikm info n m, n ≤ m →
      ctx.prim.hkdf salt ikm info n = (ctx.prim.hkdf salt ikm info m).take n)
    (tagged : ∀ key nonce aad m c, ctx.aead.encrypt key nonce aad m =
      some c → TAG_LEN ≤ c.length)
    (reachable : Reachable ctx s) {sid : SessionId} {h : ClientHandle} {t : Task σ}
    (found : s.sessions.lookup sid = some h) (isTask : s.tasks[h.task]? = some t)
    (running : t.closed = false)
    (room : t.udpRx.length < PER_CLIENT_CHAN) {cfg : Config τ} (client : ClientEnd t cfg)
    {peer : SocketAddr} {congestion : τ} {now : Instant} {fec : FecConfig}
    {turns : List (Env × Event)} {c : Tunnel τ}
    (ran : Tunnel.run cfg
      ((Tunnel.fromHandshake peer (.new sid .initiator) congestion now).configureFec cfg fec)
      turns = some c) {p : Sent} (emitted : p ∈ c.sent) (peekable : Peekable ctx t)
    (unclaimed : ¬ InTheClear ctx t → s.Unclaimed ctx.profile.handshakeTransport p.wire sid)
    (env : ServerEnv)
    (source : SocketAddr) :
    Handed s (s.dispatchDatagram ctx env p.wire source) h.task t p.wire source := by
  obtain ⟨t', isTask', -, opens⟩ := reachable.keyed sid h found
  cases isTask.symm.trans isTask'
  obtain ⟨packets, emits⟩ := Tunnel.run_emits ran
  obtain ⟨adaptive, params, start⟩ := Tunnel.configureFec_eq cfg
    (Tunnel.fromHandshake peer (.new sid .initiator) congestion now) fec
  rw [start] at emits
  have member : p ∈ packets := by
    have sent := emits.sent
    rw [sent] at emitted
    exact emitted
  obtain ⟨ciphertext, encrypted, isWire⟩ := (emits.all p member).cipher
  have version : p.hdr.version = PROTOCOL_VERSION := (emits.all p member).current.1
  have own : p.hdr.sessionId = sid := emits.own p member
  rw [client.aead, reachable.aead isTask] at encrypted
  obtain ⟨seed, layers, extracted⟩ := opens.keyed
  rw [wrapFrame_of_peekable layers peekable client, client.codec] at isWire
  have routed : s.peekRoutedSession env.order ctx.profile.handshakeTransport p.wire = some sid := by
    by_cases clear : InTheClear ctx t
    · apply routed_of_peekLive
      rw [isWire, clear.1, clear.2]
      exact peekLive_encodeFrame found opens version own ciphertext
    · have same := peekable.transport.resolve_right clear
      refine routed_of_unclaimed
        (unclaimed clear) ?_ (names_own consistent found opens extracted version own
        (tagged _ _ _ _ _ encrypted)) env.order
      rw [isWire, same]
      exact ctx.profile.handshakeTransport.unwrap_wrap _
  exact handed_of_routed found isTask running room routed

/-! ## One client -/

/-- A client with the configuration that the server has. -/
def otherEnd (t : Task σ) : Config σ := { t.cfg with
  sendKey := t.cfg.recvKey
  recvKey := t.cfg.sendKey
  sendDir := t.cfg.recvDir
  recvDir := t.cfg.sendDir }

theorem otherEnd_clientEnd (t : Task σ) : ClientEnd t (otherEnd t) :=
  ⟨rfl, rfl, rfl, rfl, rfl, rfl, rfl, List.forall₂_same.mpr fun layer _ => .refl layer⟩

/-- The client of the first session, after a ping. -/
def pingedBy (t : Task Unit) : Option (Tunnel Unit) :=
  Tunnel.run (otherEnd t)
    ((Tunnel.fromHandshake ⟨.v4 7, 51820⟩ (.new 84215045 .initiator) () 1).configureFec
    (otherEnd t) ⟨8, 0, 4, 2⟩) [(Env.small 2, .ping)]

/-- A server with a stack of its own. -/
def stackedCtx (stack : ObfuscationStack UInt8) : ServerCtx Unit :=
  { ServerCtx.small .udp 0 with obfStack := stack }

/-- That server after one handshake. -/
def stackedClient (stack : ObfuscationStack UInt8) : Server Unit :=
  (Runs.run (step (stackedCtx stack)) (init 0 .openMode)
    [.dispatcher (.small 1 5) (.datagram (stack.apply (smallMessage1 9 3)) ⟨.v4 1, 1⟩)]).getD
      (init 0 .openMode)

theorem stackedClient_reachable (stack : ObfuscationStack UInt8) :
    Reachable (stackedCtx stack) (stackedClient stack) := by
  rw [stackedClient]
  cases ran : Runs.run (step (stackedCtx stack)) (init 0 .openMode)
      [.dispatcher (.small 1 5) (.datagram (stack.apply (smallMessage1 9 3)) ⟨.v4 1, 1⟩)] with
  | none => exact ⟨0, .openMode, [], rfl⟩
  | some s => exact ⟨0, .openMode, _, ran⟩

theorem mem_of_peekLive {frame : Bytes} {sid : SessionId} (read : s.peekLive frame = some sid) :
    sid ∈ s.sessions := by
  rw [peekLive, Option.filter_eq_some_iff] at read
  exact AList.lookup_isSome.mp read.2

theorem unclaimed_of_only {sid : SessionId} (only : ∀ other ∈ s.sessions, other = sid)
    (transport : Transport) (datagram : Bytes) : s.Unclaimed transport datagram sid where
  plain read := only _ (mem_of_peekLive read)
  unwrapped _ _ read := only _ (mem_of_peekLive read)
  dewhitened _ _ _ _ _ read := only _ (mem_of_peekLive read)

/-- The whitened ping of a client that moved is handed to its session. -/
theorem ping_handed : ∃ h t c p,
    (stackedClient [.headerXor none]).sessions.lookup 84215045 = some h ∧
      (stackedClient [.headerXor none]).tasks[h.task]? = some t ∧ pingedBy t = some c ∧
      p ∈ c.sent ∧ Handed (stackedClient [.headerXor none])
        ((stackedClient [.headerXor none]).dispatchDatagram (stackedCtx [.headerXor none])
          (.small 3 1) p.wire ⟨.v4 2, 1⟩) h.task t p.wire ⟨.v4 2, 1⟩ := by
  have evaluated : ((stackedClient [.headerXor none]).sessions.lookup 84215045).any fun h =>
      ((stackedClient [.headerXor none]).tasks[h.task]?).any fun t =>
        !t.closed && decide (t.udpRx.length < PER_CLIENT_CHAN) &&
          decide (t.cfg.transport = .plain) && (pingedBy t).any fun c => c.sent.head?.isSome :=
          by decide +kernel
  simp only [Option.any_eq_true, Bool.and_eq_true, Bool.not_eq_true', decide_eq_true_eq,
    Option.isSome_iff_exists] at evaluated
  obtain ⟨h, found, t, isTask, ⟨⟨running, room⟩, plain⟩, c, pinged, p, first⟩ :=
    evaluated
  have emitted : p ∈ c.sent := List.mem_of_mem_head? first
  have only : ∀ other ∈ (stackedClient [.headerXor none]).sessions, other = 84215045 := by
    have keys : (stackedClient [.headerXor none]).sessions.keys = [84215045] := by decide +kernel
    intro other known
    rw [AList.mem_keys, keys] at known
    exact List.mem_singleton.mp known
  refine ⟨h, t, c, p, found, isTask, pinged, emitted, ?_⟩
  apply emitted_frame_handed transparent_consistent _ (stackedClient_reachable _) found isTask
    running room (otherEnd_clientEnd t) pinged emitted
    ⟨fun p => by simp [stackedCtx], .inl plain⟩ (fun _ => unclaimed_of_only only _ _)
  intro key nonce aad m c encrypted
  cases encrypted
  rw [List.length_append, List.length_replicate]
  exact Nat.le_add_left ..

/-- A stack that pads to the default buckets. -/
def paddingStack : ObfuscationStack UInt8 := [.padding ⟨DEFAULT_BUCKETS, DEFAULT_MAX⟩]

theorem padded_frame_dropped : ∃ h t c p,
    Reachable (stackedCtx paddingStack) (stackedClient paddingStack) ∧
      (stackedClient paddingStack).sessions.lookup 84215045 = some h ∧
      (stackedClient paddingStack).tasks[h.task]? = some t ∧ t.closed = false ∧
      t.udpRx.length < PER_CLIENT_CHAN ∧ ClientEnd t (otherEnd t) ∧ pingedBy t = some c ∧
      p ∈ c.sent ∧
      ((stackedClient paddingStack).dispatchDatagram (stackedCtx paddingStack) (.small 3 1) p.wire
        ⟨.v4 2, 1⟩).tasks.map Task.handed = [[]] ∧
      ¬ Handed (stackedClient paddingStack)
        ((stackedClient paddingStack).dispatchDatagram (stackedCtx paddingStack) (.small 3 1) p.wire
          ⟨.v4 2, 1⟩) h.task t p.wire ⟨.v4 2, 1⟩ := by
  have evaluated : ((stackedClient paddingStack).sessions.lookup 84215045).any fun h =>
      ((stackedClient paddingStack).tasks[h.task]?).any fun t =>
        !t.closed && decide (t.udpRx.length < PER_CLIENT_CHAN) && (pingedBy t).any fun c =>
          c.sent.head?.any fun p =>
          ((stackedClient paddingStack).dispatchDatagram (stackedCtx paddingStack)
            (.small 3 1) p.wire ⟨.v4 2, 1⟩).tasks.map Task.handed == [[]] := by decide +kernel
  simp only [Option.any_eq_true, Bool.and_eq_true, Bool.not_eq_true', decide_eq_true_eq,
    beq_iff_eq] at evaluated
  obtain ⟨h, found, t, isTask, ⟨running, room⟩, c, pinged, p, first, nothing⟩ := evaluated
  refine ⟨h, t, c, p, stackedClient_reachable _, found, isTask, running, room,
    otherEnd_clientEnd t, pinged, List.mem_of_mem_head? first, nothing, fun handed => ?_⟩
  have own := congrArg (Option.map Task.handed) handed.own
  rw [← List.getElem?_map, nothing] at own
  cases place : h.task with
  | zero => simp [place] at own
  | succ n => simp [place] at own

end Server

end Rustnies
