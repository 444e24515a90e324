import Rustnies.Lib.Trails
import Rustnies.Protocol.SessionLaws
import Rustnies.Tunnel.Closing
import Rustnies.Tunnel.View

/-! # A turn of the loop as a trail of small moves

Every turn of the run loop is a trail of moves that each change a few fields. A move says
what it relies on: the header that a packet was given, the room that a reservation found,
the packet that the turn opened. Three moves leave a note: the packet that was heard, the
number that the replay window was asked for, and the payload that was counted. A result
about whole runs looks at the moves that concern it and at no operation.
-/

namespace Rustnies

variable {σ : Type}

/-- The traffic counters, which only a packet that was sent, accepted or recovered moves. -/
structure Counters.SameTraffic (c c' : Counters) : Prop where
  txPackets : c'.txPackets = c.txPackets
  txBytes : c'.txBytes = c.txBytes
  rxPackets : c'.rxPackets = c.rxPackets
  rxBytes : c'.rxBytes = c.rxBytes
  fecRecovered : c'.fecRecovered = c.fecRecovered

namespace Tunnel

/-- What a turn may do to the controller: reserve bytes, settle them, or close. -/
inductive Phase where
  | sends
  | settles
  | closes
  deriving DecidableEq

/-- What a turn sends beside data and parity: only one that closes sends reliable packets. -/
structure Phase.Controls (phase : Phase) (ptype : PacketType) : Prop where
  control : ¬ (ptype = .data ∨ ptype = .fec)
  reliable : ptype.isReliable = true → phase = .closes

inductive Note where
  | heard (hdr : PacketHeader) (payload : Bytes)
  | checked (seq : UInt32)
  | counted (payload : Bytes)
  deriving DecidableEq

/-- The header of a packet that the tunnel is about to seal. -/
structure Stamped (t : Tunnel σ) (hdr : PacketHeader) : Prop where
  current : hdr.Current
  own : hdr.sessionId = t.session.id
  seq : hdr.seq = t.session.nextSeq
  ack : (hdr.ackSeq, hdr.ackBitmap) = t.session.ackSnapshot

/-- The tunnel after a seal. -/
def afterSeal (cfg : Config σ) (t : Tunnel σ) (hdr : PacketHeader) (payload : Bytes) :
    Tunnel σ :=
  { t with
    session := t.session.allocSeq.2
    seals := t.seals ++
      [⟨makeNonce t.session.id hdr.seq cfg.sendDir, cfg.codec.encodeHeader hdr, payload⟩] }

/-- One move of a turn in the given phase, which opened the given packet, if any. -/
inductive Move (cfg : Config σ) (env : Env) (phase : Phase)
    (packet : Option (PacketHeader × Bytes)) :
    Tunnel σ → List Note → Tunnel σ → Prop where
  -- What is sealed and sent.
  | sealing {t : Tunnel σ} {hdr : PacketHeader} (stamped : t.Stamped hdr) (payload : Bytes) :
      Move cfg env phase packet t [] (t.afterSeal cfg hdr payload)
  | control {t : Tunnel σ} {hdr : PacketHeader} (stamped : t.Stamped hdr)
      (kind : phase.Controls hdr.packetType) (payload wire : Bytes) :
      Move cfg env phase packet t [] ((t.afterSeal cfg hdr payload).recordSent hdr payload wire)
  | transmit {t : Tunnel σ} {hdr : PacketHeader} {kind : SentPacketKind} (sending : phase = .sends)
      (stamped : t.Stamped hdr) (fec : hdr.packetType = .data ∨ hdr.packetType = .fec)
        (payload wire : Bytes) :
      Move cfg env phase packet t []
        ((t.afterSeal cfg hdr payload).noteTransmitted env hdr payload wire
          (max payload.length 1) kind)
  -- The controller.
  | waits {t : Tunnel σ} (sending : phase = .sends) (len : Nat)
      (refused : (cfg.congestion.maySend env.now t.congestion len).1 = false) :
      Move cfg env phase packet t [] { t with congestion :=
        (cfg.congestion.maySend env.now t.congestion len).2 }
  | reserves {t : Tunnel σ} (sending : phase = .sends) {len : Nat} (positive : 0 < len)
      (room : len ≤ cfg.congestion.sendBudget t.congestion)
      (granted : (cfg.congestion.maySend env.now t.congestion len).1 = true) :
      Move cfg env phase packet t [] { t with
        congestion :=
          cfg.congestion.onSendBytes env.now
          (cfg.congestion.maySend env.now t.congestion len).2 len }
  | parity {t : Tunnel σ} (sending : phase = .sends) (len : Nat) :
      Move cfg env phase packet t []
        { t with congestion := (cfg.congestion.trySendParity env.now t.congestion len).2 }
  | refunds {t : Tunnel σ} (sending : phase = .sends) (len : Nat) :
      Move cfg env phase packet t [] (t.refund cfg len)
  | retires {t : Tunnel σ} (settling : phase = .settles) (acked lost : Nat)
      (rtt : Option Duration) :
      Move cfg env phase packet t []
        { t with congestion := retire cfg env t.congestion acked lost rtt }
  | loses {t : Tunnel σ} (settling : phase = .settles) (lost total : Nat) :
      Move cfg env phase packet t []
        { t with congestion := cfg.congestion.onLoss env.now t.congestion lost total }
  | samples {t : Tunnel σ} (settling : phase = .settles) (rtt : Duration) :
      Move cfg env phase packet t []
        { t with congestion := cfg.congestion.onRttSample t.congestion rtt }
  -- The accounting of the send side.
  | grouping {t : Tunnel σ} (id : UInt16) (index : UInt8) (buffer : List Bytes) :
      Move cfg env phase packet t []
        { t with groupId := id, groupIndex := index, groupBuffer := buffer }
  | parks {t : Tunnel σ} (parked : Option Bytes) (deadline : Option Instant) :
      Move cfg env phase packet t [] (t.park parked deadline)
  | pings {t : Tunnel σ} (seq : UInt32) : Move cfg env phase packet t [] { t with pingSeq := seq }
  | tallies {t : Tunnel σ} {counters : Counters} (same : t.counters.SameTraffic counters) :
      Move cfg env phase packet t [] { t with counters := counters }
  | wireWindow {t : Tunnel σ} (lost : Bool) : Move cfg env phase packet t []
      { t with wireLossWindow := (t.wireLossWindow.record lost LOSS_SAMPLE_PACKETS).2 }
  | sourceWindow {t : Tunnel σ} (lost : Bool) : Move cfg env phase packet t []
      { t with sourceLossWindow := (t.sourceLossWindow.record lost LOSS_SAMPLE_SOURCES).2 }
  | adapts {t : Tunnel σ} (fec : AdaptiveFec ℚ) (params : FecParams) :
      Move cfg env phase packet t [] { t with fec := fec, fecParams := params }
  | resolves {t : Tunnel σ} {open_ : Table UInt32 SentPacket}
      {resolved : List (UInt32 × Bool × SentPacket)} (settling : phase = .settles)
      (kept : open_.entries ⊆ t.sentPackets.entries)
      (held : ∀ r ∈ resolved, ⟨r.1, r.2.2⟩ ∈ t.sentPackets.entries)
      (sound : ∀ r ∈ resolved, r.2.1 = true → t.session.peerAcked r.1 = true) :
      Move cfg env phase packet t []
        { t with sentPackets := open_, resolutions := t.resolutions ++ resolved }
  | queues {t : Tunnel σ} (closing : phase = .closes) (o : Outstanding)
      (room : t.outstanding.length < MAX_OUTSTANDING_CONTROL) :
      Move cfg env phase packet t [] { t with outstanding := t.outstanding ++ [o] }
  | resends {t : Tunnel σ} (due : Outstanding → Bool) (touch : Outstanding → Outstanding)
      (kept : Outstanding → Bool) : Move cfg env phase packet t [] { t with
        resent := t.resent ++ (t.outstanding.filter due).map fun o => (o.payload, t.peer)
        outstanding := (t.outstanding.map touch).filter kept }
  -- The packet that the turn opened.
  | observes {t : Tunnel σ} {hdr : PacketHeader} {payload : Bytes}
      (opened : packet = some (hdr, payload)) :
      Move cfg env phase packet t []
        { t with session := t.session.observeAcks hdr.ackSeq hdr.ackBitmap }
  | compares {t : Tunnel σ} (ack bitmap : UInt32) :
      Move cfg env phase packet t [] { t with lastPeerAck := ack, lastPeerBitmap := bitmap }
  | follows {t : Tunnel σ} (peer : SocketAddr) (signals : List (SessionId × SocketAddr)) :
      Move cfg env phase packet t [] { t with peer := peer, roamSignals := signals }
  | hears {t : Tunnel σ} {hdr : PacketHeader} {payload : Bytes}
      (opened : packet = some (hdr, payload)) :
      Move cfg env phase packet t [.heard hdr payload] { t with
        lastPeerActivity := env.now
        session := { t.session with ack := t.session.ack.record hdr.seq } }
  | owes {t : Tunnel σ} {n : UInt32} (few : n < ACK_EVERY) :
      Move cfg env phase packet t [] { t with rxSinceAck := n }
  | replays {t : Tunnel σ} (seq : UInt32) : Move cfg env phase packet t [.checked seq]
      { t with session := { t.session with replay := (t.session.replay.checkAndRecord seq).2 } }
  | counts {t : Tunnel σ} {hdr : PacketHeader} {payload : Bytes}
      (opened : packet = some (hdr, payload)) :
      Move cfg env phase packet t [.counted payload] (t.countReceived payload)
  | delivers {t : Tunnel σ} {hdr : PacketHeader} {payload : Bytes}
      (opened : packet = some (hdr, payload)) (kind : hdr.packetType = .data) : Move cfg env phase
      packet t [] (t.writeTun ⟨.data hdr, payload⟩)
  | recovers {t : Tunnel σ} (groups : Table UInt16 RxGroup) (group : UInt16)
      (lost : List (Nat × Bytes)) :
      Move cfg env phase packet t []
        (t.withRx ⟨groups, t.tunWrites ++ lost.map fun (i, sym) =>
          ⟨.recovered group i, sym⟩⟩ (t.countRecovered env lost))
  -- The end of the loop.
  | closes {t : Tunnel σ} : Move cfg env phase packet t [] { t with closing := true }
  | leaves {t : Tunnel σ} (exit : Option TunnelExit) : Move cfg env phase packet t []
      { t with exit := exit }

/-- The moves of one turn. -/
abbrev Moves (cfg : Config σ) (env : Env) (phase : Phase)
    (packet : Option (PacketHeader × Bytes)) :
    Tunnel σ → List Note → Tunnel σ → Prop := Trail (Move cfg env phase packet)

section Turn

variable {cfg : Config σ} {env : Env} {phase : Phase} {packet : Option (PacketHeader × Bytes)}
  {t t' : Tunnel σ}

/-! ## Seals -/

theorem stamped_nextHeader (t : Tunnel σ) (ptype : PacketType) (group : UInt16)
    (index k m : UInt8) :
    t.Stamped
      { (t.nextHeader ptype).1 with fecGroup := group, fecIndex := index, fecK := k, fecM := m } :=
  ⟨⟨rfl, rfl⟩, rfl, rfl, rfl⟩

theorem afterSeal_of_sealPacket {ptype : PacketType} {hdr : PacketHeader} {payload : Bytes}
    {wire : Option Bytes} (made : (t.nextHeader ptype).2.sealPacket cfg hdr payload = (wire, t')) :
    t' = t.afterSeal cfg hdr payload := by
  cases made
  rfl

/-! ## Control packets -/

theorem sendPacket_moves (t : Tunnel σ) (ptype : PacketType)
    (plain : ¬ (ptype = .data ∨ ptype = .fec) ∧ ptype.isReliable = false) (payload : Bytes) :
    Moves cfg env phase packet t [] (t.sendPacket cfg env ptype payload) := by
  have stamped : t.Stamped (t.nextHeader ptype).1 := ⟨⟨rfl, rfl⟩, rfl, rfl, rfl⟩
  have control : phase.Controls ptype :=
    ⟨plain.1, fun reliable => absurd reliable (Bool.eq_false_iff.mp plain.2)⟩
  simp only [sendPacket]
  rcases made : sealPacket cfg (t.nextHeader ptype).2 (t.nextHeader ptype).1 payload with
    ⟨_ | wire, mid⟩
  · obtain rfl := afterSeal_of_sealPacket made
    exact .single (.sealing stamped payload)
  · obtain rfl := afterSeal_of_sealPacket made
    simp only
    split
    · exact .single (.control stamped control payload wire)
    · exact .single (.sealing stamped payload)

theorem sendControl_moves (t : Tunnel σ) (ptype : PacketType)
    (control : ¬ (ptype = .data ∨ ptype = .fec)) (payload : Bytes) :
    Moves cfg env .closes packet t [] (t.sendControl cfg env ptype payload) := by
  have stamped : t.Stamped (t.nextHeader ptype).1 := ⟨⟨rfl, rfl⟩, rfl, rfl, rfl⟩
  have control : Phase.Controls .closes ptype := ⟨control, fun _ => rfl⟩
  simp only [sendControl]
  rcases made : sealPacket cfg (t.nextHeader ptype).2 (t.nextHeader ptype).1 payload with
    ⟨_ | wire, mid⟩
  · obtain rfl := afterSeal_of_sealPacket made
    exact .single (.sealing stamped payload)
  · obtain rfl := afterSeal_of_sealPacket made
    simp only
    split
    · split
      · rename_i room
        exact (Trail.single (.control stamped control payload wire)).quietly
          (.single (.queues rfl _ room))
      · exact .single (.control stamped control payload wire)
    · exact .single (.sealing stamped payload)

theorem flushCoalescedAck_moves (t : Tunnel σ) :
    Moves cfg env phase packet t [] (t.flushCoalescedAck cfg env) := by
  unfold flushCoalescedAck
  split
  · exact (Trail.single (.owes (by decide))).quietly (sendPacket_moves _ .ack (by decide) [])
  · exact .refl t

theorem sendPing_moves (t : Tunnel σ) : Moves cfg env phase packet t [] (t.sendPing cfg env) :=
  (Trail.single (.pings (t.pingSeq + 1))).quietly (sendPacket_moves _ .ping (by decide) _)

/-! ## Data and parity -/

theorem transmitParity_moves (k : Nat) (group : UInt16) (t : Tunnel σ) (parity : Bytes) (i : Nat) :
    Moves cfg env .sends packet t [] (t.transmitParity cfg env k group parity i) := by
  have stamped :=
    t.stamped_nextHeader .fec group (UInt8.ofNat k + UInt8.ofNat i) t.fecParams.k t.fecParams.m
  simp only [transmitParity]
  split
  · rename_i mid made
    obtain rfl := afterSeal_of_sealPacket made
    exact (Trail.single (.sealing stamped parity)).quietly (.single (.refunds rfl _))
  · rename_i wire mid made
    obtain rfl := afterSeal_of_sealPacket made
    split
    · refine (Trail.single (.sealing stamped parity)).quietly ?_
      exact (Trail.single (.tallies ⟨rfl, rfl, rfl, rfl, rfl⟩)).quietly
        (.single (.refunds rfl _))
    · split
      · exact .single (.transmit rfl stamped (.inr rfl) parity wire)
      · exact (Trail.single (.sealing stamped parity)).quietly (.single (.refunds rfl _))

theorem sendParity_moves (k : Nat) (group : UInt16) (t : Tunnel σ) (parity : Bytes) (i : Nat) :
    Moves cfg env .sends packet t [] (t.sendParity cfg env k group parity i) := by
  rw [sendParity_eq]
  have asked : Moves cfg env .sends packet t [] _ := .single (.parity rfl (max parity.length 1))
  rcases answer : cfg.congestion.trySendParity env.now t.congestion (max parity.length 1)
    with ⟨_ | _, congestion⟩
  · rw [answer] at asked
    exact asked.quietly (.single (.tallies ⟨rfl, rfl, rfl, rfl, rfl⟩))
  · rw [answer] at asked
    exact asked.quietly (transmitParity_moves k group _ parity i)

theorem flushFecGroup_moves (t : Tunnel σ) :
    Moves cfg env .sends packet t [] (t.flushFecGroup cfg env) := by
  have parities : ∀ (parities : List (Bytes × Nat)) (k : Nat) (group : UInt16) (t : Tunnel σ),
      Moves cfg env .sends packet t []
        (parities.foldl (fun t p => t.sendParity cfg env k group p.1 p.2) t) := by
    intro parities k group
    induction parities with
    | nil => exact .refl
    | cons p parities ih => exact fun t => (sendParity_moves k group t p.1 p.2).quietly (ih _)
  unfold flushFecGroup
  split
  · exact .refl t
  · refine (Trail.single (.grouping (t.groupId + 1) 0 [])).quietly ?_
    simp only
    split
    · exact .refl _
    · split
      · exact .refl _
      · exact parities _ _ _ _

theorem joinGroup_moves (t : Tunnel σ) (k : UInt8) (data : Bytes) :
    Moves cfg env .sends packet t [] (t.joinGroup cfg env k data) := by
  have joined : Moves cfg env .sends packet t [] _ :=
    .single (.grouping t.groupId (t.groupIndex + 1) (t.groupBuffer ++ [data]))
  simp only [joinGroup]
  split
  · exact joined.quietly (flushFecGroup_moves _)
  · exact joined

theorem sendData_moves (t : Tunnel σ) (data : Bytes) :
    Moves cfg env .sends packet t [] (t.sendData cfg env data (max data.length 1)).2 := by
  have stamped := t.stamped_nextHeader .data t.groupId t.groupIndex t.fecParams.k t.fecParams.m
  simp only [sendData]
  split
  · rename_i mid made
    obtain rfl := afterSeal_of_sealPacket made
    exact (Trail.single (.sealing stamped data)).quietly (.single (.refunds rfl _))
  · rename_i wire mid made
    obtain rfl := afterSeal_of_sealPacket made
    split
    · refine (Trail.single (.sealing stamped data)).quietly ?_
      exact (Trail.single (.tallies ⟨rfl, rfl, rfl, rfl, rfl⟩)).quietly
        (.single (.refunds rfl _))
    · split
      · exact (Trail.single (.transmit rfl stamped (.inl rfl) data wire)).quietly
          (joinGroup_moves _ _ data)
      · exact (Trail.single (.sealing stamped data)).quietly (.single (.refunds rfl _))

theorem handleTunPacket_moves (t : Tunnel σ) (data : Bytes) :
    Moves cfg env .sends packet t [] (t.handleTunPacket cfg env data).2 := by
  have tallied : ∀ {t : Tunnel σ} {counters : Counters}, t.counters.SameTraffic counters →
      Moves cfg env .sends packet t [] { t with counters := counters } :=
      fun same => .single (.tallies same)
  unfold handleTunPacket
  split
  · exact tallied ⟨rfl, rfl, rfl, rfl, rfl⟩
  simp only
  split
  · exact tallied ⟨rfl, rfl, rfl, rfl, rfl⟩
  rename_i room
  split
  · rename_i refused
    refine (Trail.single (.waits rfl (max data.length 1) (by simpa using refused))).quietly ?_
    exact tallied ⟨rfl, rfl, rfl, rfl, rfl⟩
  · rename_i granted
    exact (Trail.single
      (.reserves rfl (Nat.le_max_right _ _) (Nat.le_of_not_lt room)
      (by simpa using granted))).quietly (sendData_moves _ data)

theorem parkIfPaced_moves (t : Tunnel σ) (data : Bytes) :
    Moves cfg env phase packet t [] (t.parkIfPaced cfg env data) := by
  unfold parkIfPaced
  split
  · exact .single (.parks _ _)
  · exact .refl t

theorem onTun_moves (t : Tunnel σ) (data : Bytes) :
    Moves cfg env .sends packet t [] (t.onTun cfg env data) := by
  have handled : Moves cfg env .sends packet t []
    ((t.park none none).handleTunPacket cfg env data).2 :=
    (Trail.single (.parks none none)).quietly (handleTunPacket_moves _ data)
  simp only [onTun]
  rcases answer : (t.park none none).handleTunPacket cfg env data with ⟨_ | _, mid⟩
  · rw [answer] at handled
    exact handled.quietly (parkIfPaced_moves mid data)
  · rw [answer] at handled
    exact handled

theorem retryPending_moves (t : Tunnel σ) :
    Moves cfg env .sends packet t [] (t.retryPending cfg env) := by
  unfold retryPending
  split
  · exact .single (.parks none none)
  · rename_i data _
    have handled : Moves cfg env .sends packet t []
      ((t.park none t.pendingDeadline).handleTunPacket cfg env data).2 :=
      (Trail.single (.parks none t.pendingDeadline)).quietly (handleTunPacket_moves _ data)
    rcases answer : (t.park none t.pendingDeadline).handleTunPacket cfg env data
      with ⟨_ | _, mid⟩
    · rw [answer] at handled
      exact handled.quietly
        ((Trail.single (.parks mid.pendingOut none)).quietly (parkIfPaced_moves _ data))
    · rw [answer] at handled
      exact handled.quietly (.single (.parks mid.pendingOut none))

/-! ## Acknowledged and lost packets -/

/-- The half of `noteResolved` that is about the sources of a group. -/
def noteSource (t : Tunnel σ) (acked : Bool) (kind : SentPacketKind) : Tunnel σ :=
  if kind = .data then
    match t.sourceLossWindow.record (!acked) LOSS_SAMPLE_SOURCES with
    | (some (lost, total), w) =>
        { t with sourceLossWindow := w
                 fec := t.fec.observeUnrecoverable lost total }.applyFecParams
    | (none, w) => { t with sourceLossWindow := w }
  else t

theorem noteSource_moves (t : Tunnel σ) (acked : Bool) (kind : SentPacketKind) :
    Moves cfg env .settles packet t [] (t.noteSource acked kind) := by
  have moved : Moves cfg env .settles packet t [] _ := .single (.sourceWindow (!acked))
  unfold noteSource
  split
  · rcases recorded : t.sourceLossWindow.record (!acked) LOSS_SAMPLE_SOURCES
      with ⟨_ | ⟨lost, total⟩, w⟩
    · rw [recorded] at moved
      exact moved
    · rw [recorded] at moved
      exact moved.quietly (.single (.adapts _ _))
  · exact .refl _

theorem noteResolved_moves (t : Tunnel σ) (acked : Bool) (kind : SentPacketKind) :
    Moves cfg env .settles packet t [] (t.noteResolved cfg env acked kind) := by
  have wire : Moves cfg env .settles packet t [] _ := .single (.wireWindow (!acked))
  unfold noteResolved
  rcases recorded : t.wireLossWindow.record (!acked) LOSS_SAMPLE_PACKETS
    with ⟨_ | ⟨lost, total⟩, w⟩
  · rw [recorded] at wire
    exact wire.quietly (noteSource_moves _ acked kind)
  · rw [recorded] at wire
    exact (wire.quietly (.single (.loses rfl lost total))).quietly (noteSource_moves _ acked kind)

theorem reconcilePeerAcks_moves (t : Tunnel σ) :
    Moves cfg env .settles packet t [] (t.reconcilePeerAcks cfg env).2 := by
  have windows : ∀ (resolved : List (UInt32 × Bool × SentPacket)) (t : Tunnel σ),
    Moves cfg env .settles packet t []
    (resolved.foldl (fun t r => t.noteResolved cfg env r.2.1 r.2.2.kind) t) := by
    intro resolved
    induction resolved with
    | nil => exact .refl
    | cons r resolved ih => exact fun t => (noteResolved_moves t r.2.1 r.2.2.kind).quietly (ih _)
  have sound : ∀ r ∈ t.resolvedNow cfg env,
    r.2.1 = true → t.session.peerAcked r.1 = true := by
    intro r member acked
    have resolved := (mem_resolvedNow.mp member).2
    rw [acked, resolve] at resolved
    split at resolved
    · assumption
    · simp only at resolved
      split at resolved <;> cases resolved
  rw [reconcilePeerAcks_resolved cfg env t rfl]
  refine Trail.quietly ?_ (windows _ _)
  have kept : (t.stillOpen cfg env).entries ⊆ t.sentPackets.entries := fun e member =>
    List.mem_of_mem_filter ((stillOpen_perm cfg env t).mem_iff.mp member)
  refine (Trail.single
    (.resolves rfl kept (fun r member => (mem_resolvedNow.mp member).1) sound)).quietly ?_
  exact .single (.retires rfl _ _ _)

theorem checkRetransmits_moves (t : Tunnel σ) :
    Moves cfg env .settles packet t [] (t.checkRetransmits cfg env) :=
  (reconcilePeerAcks_moves t).quietly (.single (.resends _ _ _))

theorem observePeerAcks_moves {hdr : PacketHeader} {payload : Bytes}
    (opened : packet = some (hdr, payload)) (t : Tunnel σ) :
    Moves cfg env .settles packet t [] (t.observePeerAcks cfg env hdr) := by
  rw [observePeerAcks_eq]
  split
  · refine (Trail.single (.observes opened)).quietly ((reconcilePeerAcks_moves _).quietly ?_)
    simp only [noteReconciled]
    split
    · exact (Trail.single (.tallies ⟨rfl, rfl, rfl, rfl, rfl⟩)).quietly
        (.single (.compares _ _))
    · exact .single (.compares _ _)
  · exact .refl t

/-! ## An authenticated packet -/

theorem followPeer_moves (t : Tunnel σ) (source : SocketAddr) :
    Moves cfg env phase packet t [] (t.followPeer cfg source) := by
  unfold followPeer
  split
  · exact .single (.follows _ _)
  · exact .refl t

/-- The tunnel once it has noted a packet as received. -/
def noted (env : Env) (t : Tunnel σ) (hdr : PacketHeader) : Tunnel σ :=
  { t with
    lastPeerActivity := env.now
    session := { t.session with ack := t.session.ack.record hdr.seq } }

theorem noteReceived_answers (t : Tunnel σ) (hdr : PacketHeader) :
    Moves cfg env phase packet (t.noted env hdr) [] (t.noteReceived cfg env hdr) := by
  simp only [noteReceived]
  split
  · split
    · exact (Trail.single (.owes (by decide))).quietly (sendPacket_moves _ .ack (by decide) [])
    · rename_i few
      exact .single (.owes (UInt32.not_le.mp few))
  · exact .refl _

theorem recordRxSymbol_moves {hdr : PacketHeader} {payload : Bytes} {isData : Bool}
    (kind : isData = decide (hdr.packetType = .data))
    (done : t.recordRxSymbol cfg env hdr payload isData = some t') :
    Moves cfg env phase packet t [] t' := by
  rw [recordRxSymbol_eq cfg env t hdr payload isData kind] at done
  obtain ⟨arrived, -, rfl⟩ := Option.map_eq_some_iff.mp done
  exact .single (.recovers _ _ _)

theorem dispatch_moves {hdr : PacketHeader} {payload : Bytes}
    (opened : packet = some (hdr, payload)) (done : t.dispatch cfg env hdr payload = some t') :
    Moves cfg env .settles packet t [] t' := by
  cases kind : hdr.packetType with
  | data =>
      have isData : true = decide (hdr.packetType = .data) := by rw [kind]; rfl
      simp only [dispatch, kind, handleData] at done
      split at done
      · exact recordRxSymbol_moves isData done
      · refine (Trail.single (.delivers opened kind)).quietly ?_
        split at done
        · exact recordRxSymbol_moves isData done
        · cases done
          exact .refl _
  | fec =>
      have isParity : false = decide (hdr.packetType = .data) := by rw [kind]; rfl
      simp only [dispatch, kind, handleParity] at done
      split at done
      · cases done
        exact .refl t
      · exact recordRxSymbol_moves isParity done
  | ping =>
      simp only [dispatch, kind] at done
      cases done
      exact sendPacket_moves t .pong (by decide) payload
  | pong =>
      simp only [dispatch, kind] at done
      cases done
      simp only [handlePong]
      split
      · exact .refl t
      · split
        · exact .single (.samples rfl _)
        · exact .refl t
  | close =>
      simp only [dispatch, kind] at done
      cases done
      exact .single .closes
  | _ =>
      simp only [dispatch, kind] at done
      cases done
      exact .refl t

/-- The notes that an authenticated packet leaves: it is heard, the replay window is asked
    for it when it is reliable, and it is counted unless the window has it. -/
def notesOf (t : Tunnel σ) (hdr : PacketHeader) (payload : Bytes) : List Note :=
  if hdr.packetType.isReliable then
    if (t.session.receiveReliable hdr.seq).1
      then [.heard hdr payload, .checked hdr.seq, .counted payload]
    else [.heard hdr payload, .checked hdr.seq]
  else [.heard hdr payload, .counted payload]

theorem receiveReliable_noted (s : Session) {seq : UInt32} (noted : s.ack.record seq = s.ack) :
    (s.receiveReliable seq).2 = { s with replay := (s.replay.checkAndRecord seq).2 } := by
  simp only [Session.receiveReliable]
  split
  · simp only [noted]
  · rfl

theorem acceptPacket_answers {hdr : PacketHeader} {payload : Bytes}
    (opened : packet = some (hdr, payload)) {source : SocketAddr}
    (done : t.acceptPacket cfg env source hdr payload = some t') :
    Moves cfg env .settles packet
    (((t.observePeerAcks cfg env hdr).followPeer cfg source).noted env hdr)
    (t.notesOf hdr payload).tail t' := by
  have before : Moves cfg env .settles packet
    (((t.observePeerAcks cfg env hdr).followPeer cfg source).noted env hdr) []
    (((t.observePeerAcks cfg env hdr).followPeer cfg source).noteReceived cfg env hdr) :=
    noteReceived_answers _ hdr
  have counted : ∀ {mid : Tunnel σ}, (mid.countReceived payload).dispatch cfg env hdr payload =
    some t' → Moves cfg env .settles packet mid [.counted payload] t' := fun dispatched =>
    (Trail.single (.counts opened)).trans (dispatch_moves opened dispatched)
  have same := receiveReliable_congr (replay_before_check cfg env t source hdr) hdr.seq
  simp only [acceptPacket] at done
  by_cases reliable : hdr.packetType.isReliable = true
  · -- a reliable packet is no packet of a group, so it is noted and nothing is sent
    have quiet : ¬ (hdr.packetType = .data ∨ hdr.packetType = .fec) := by
      rintro (data | fec)
      · rw [data] at reliable
        cases reliable
      · rw [fec] at reliable
        cases reliable
    have noted :
      (((t.observePeerAcks cfg env hdr).followPeer cfg source).noteReceived cfg env
      hdr).session.ack.record hdr.seq =
      (((t.observePeerAcks cfg env hdr).followPeer cfg source).noteReceived cfg env
      hdr).session.ack := by
      simp only [noteReceived, if_neg quiet]
      exact AckTracker.record_record _ _
    have checked := receiveReliable_noted _ noted
    rw [if_pos reliable] at done
    rw [notesOf, if_pos reliable, ← same]
    rcases answer : Session.receiveReliable
        (((t.observePeerAcks cfg env hdr).followPeer cfg source).noteReceived cfg env hdr).session
          hdr.seq
      with ⟨_ | _, session⟩
    · rw [answer] at done checked
      cases done
      obtain rfl : session = _ := checked
      exact before.trans (.single (.replays hdr.seq))
    · rw [answer] at done checked
      obtain rfl : session = _ := checked
      exact before.trans ((Trail.single (.replays hdr.seq)).trans (counted done))
  · rw [if_neg reliable] at done
    rw [notesOf, if_neg reliable]
    exact before.trans (counted done)

theorem notesOf_eq (t : Tunnel σ) (hdr : PacketHeader) (payload : Bytes) :
    t.notesOf hdr payload = .heard hdr payload :: (t.notesOf hdr payload).tail := by
  unfold notesOf
  split
  · split <;> rfl
  · rfl

theorem acceptPacket_moves {hdr : PacketHeader} {payload : Bytes}
    (opened : packet = some (hdr, payload)) {source : SocketAddr}
    (done : t.acceptPacket cfg env source hdr payload = some t') :
    Moves cfg env .settles packet t (t.notesOf hdr payload) t' := by
  have heard : Moves cfg env .settles packet ((t.observePeerAcks cfg env hdr).followPeer cfg source)
      [.heard hdr payload]
        (((t.observePeerAcks cfg env hdr).followPeer cfg source).noted env hdr) :=
    .single (.hears opened)
  rw [notesOf_eq]
  exact (observePeerAcks_moves opened t).quietly ((followPeer_moves _ source).quietly
    (heard.trans (acceptPacket_answers opened done)))

/-! ## One turn of the loop -/

/-- What a turn of the event may do to the controller. -/
def phaseOf : Event → Phase
  | .datagram _ _ | .rtoTick => .settles
  | .stop _ | .timeoutCheck | .evict => .closes
  | _ => .sends

/-- The packet that an event opens. -/
def opened (cfg : Config σ) (t : Tunnel σ) : Event → Option (PacketHeader × Bytes)
  | .datagram bytes _ => (cfg.openDatagram t.session.id bytes).toOption
  | _ => none

/-- The notes of a turn. -/
def notes (cfg : Config σ) (t : Tunnel σ) (e : Event) : List Note :=
  if t.exit.isSome then []
  else
    match t.opened cfg e with
    | none => []
    | some (hdr, payload) => t.notesOf hdr payload


theorem closeAndExit_moves (t : Tunnel σ) (exit : TunnelExit) :
    Moves cfg env .closes packet t [] (t.closeAndExit cfg env exit) :=
  (sendControl_moves t .close (by decide) []).quietly (.single (.leaves (some exit)))

theorem datagram_moves {bytes : Bytes} {source : SocketAddr}
    (done : t.handleEvent cfg env (.datagram bytes source) = some t') :
    Moves cfg env .settles (t.opened cfg (.datagram bytes source)) t
      (match t.opened cfg (.datagram bytes source) with
        | none => []
        | some (hdr, payload) => t.notesOf hdr payload) t' := by
  have left : ∀ {packet notes} {mid : Tunnel σ}, Moves cfg env .settles packet t notes mid →
      Moves cfg env .settles packet t notes
        (if mid.closing then { mid with exit := some .peerClosed } else mid) := by
    intro packet notes mid before
    have more := before.trans (.single (.leaves (some .peerClosed)))
    rw [List.append_nil] at more
    exact .ite more before
  obtain ⟨mid, handled, rfl⟩ := Option.map_eq_some_iff.mp done
  cases result : cfg.openDatagram t.session.id bytes with
  | error e =>
      simp only [handleUdpDatagram, result] at handled
      cases handled
      simp only [opened, result, Except.toOption]
      exact left (.refl t)
  | ok packet =>
      obtain ⟨hdr, payload⟩ := packet
      simp only [handleUdpDatagram, result] at handled
      simp only [opened, result, Except.toOption]
      exact left (acceptPacket_moves rfl handled)

/-- Every turn is a trail of moves of its phase. -/
theorem handleEvent_moves {e : Event} (running : t.exit = none)
    (done : t.handleEvent cfg env e = some t') :
    Moves cfg env (phaseOf e) (t.opened cfg e) t (t.notes cfg e) t' := by
  rw [notes, running, Option.isSome_none, if_neg Bool.false_ne_true]
  cases e with
  | datagram bytes source => exact datagram_moves done
  | stop requested =>
      cases done
      exact .ite (closeAndExit_moves t .stopped) (.refl t)
  | tun data =>
      cases done
      exact onTun_moves t data
  | tunError =>
      cases done
      exact .single (.leaves _)
  | pacerRetry =>
      cases done
      exact .ite (retryPending_moves t) (.refl t)
  | udpClosed =>
      cases done
      exact .single (.leaves _)
  | ping =>
      cases done
      exact sendPing_moves t
  | fecTick =>
      cases done
      have flushed : Moves cfg env .sends none t [] (t.flushFecGroupIfStale cfg env) := by
        unfold flushFecGroupIfStale
        split
        · exact .refl t
        · exact flushFecGroup_moves t
      have expired : ∀ t : Tunnel σ,
        Moves cfg env .sends none t [] (t.evictExpiredRxGroups env) := by
        intro t
        have moved : Moves cfg env .sends none t [] _ :=
          .single (.recovers (t.rxGroups.retain fun _ group => env.now < group.deadline) 0 [])
        rw [List.map_nil, List.append_nil, countRecovered_nil] at moved
        exact moved
      exact flushed.quietly (expired _)
  | rtoTick =>
      cases done
      exact checkRetransmits_moves t
  | ackTick =>
      cases done
      exact flushCoalescedAck_moves t
  | keepalive =>
      cases done
      exact sendPacket_moves t .keepalive (by decide) _
  | timeoutCheck =>
      cases done
      exact .ite (closeAndExit_moves t .sessionTimeout) (.refl t)
  | evict =>
      cases done
      exact closeAndExit_moves t .peerClosed

theorem step_moves {turn : Env × Event} (stepped : step cfg t turn = some t') :
    Moves cfg turn.1 (phaseOf turn.2) (t.opened cfg turn.2) t (t.notes cfg turn.2) t' := by
  cases exited : t.exit with
  | some exit =>
      rw [step_exited turn (by rw [exited]; rfl)] at stepped
      cases stepped
      rw [notes, exited, Option.isSome_some, if_pos rfl]
      exact .refl t
  | none =>
      rw [step_running turn exited] at stepped
      exact handleEvent_moves exited stepped

/-! ## Runs -/

/-- The notes of a run. -/
def notesAlong (cfg : Config σ) (t : Tunnel σ) : List (Env × Event) → List Note
  | [] => []
  | turn :: turns => t.notes cfg turn.2 ++
      match step cfg t turn with
      | none => []
      | some mid => mid.notesAlong cfg turns

/-- What every move keeps of the state and the notes so far, a run keeps. -/
theorem run_notes (Inv : Tunnel σ → List Note → Prop)
    (keeps : ∀ env phase packet t notes t' old,
      Move cfg env phase packet t notes t' → Inv t old → Inv t' (old ++ notes))
    {turns : List (Env × Event)} (ran : run cfg t turns = some t') {old : List Note}
    (start : Inv t old) : Inv t' (old ++ t.notesAlong cfg turns) := by
  induction turns generalizing t old with
  | nil =>
      cases ran
      rwa [notesAlong, List.append_nil]
  | cons turn turns ih =>
      obtain ⟨mid, stepped, rest⟩ := Runs.run_cons_eq_some.mp ran
      have moved := (step_moves stepped).invariant Inv (keeps turn.1 _ _) start
      rw [notesAlong, stepped, ← List.append_assoc]
      exact ih rest moved

end Turn

end Tunnel

end Rustnies
