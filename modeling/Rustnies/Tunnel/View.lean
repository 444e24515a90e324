import Rustnies.Tunnel.InFlight

/-! # A tunnel through its controller

Only the controller's own calls read its state. When a controller keeps more than another
and answers as it does, the tunnel with the one, seen without the surplus, runs as the
tunnel with the other.
-/

namespace Rustnies

variable {σ τ : Type}

/-- Every call of the one controller is the call of the other on the part in view. -/
structure CongestionControl.Projects (whole : CongestionControl τ) (part : CongestionControl σ)
    (view : τ → σ) :
    Prop where
  sendBudget : ∀ s, whole.sendBudget s = part.sendBudget (view s)
  maySend : ∀ now s len, Prod.map id view (whole.maySend now s len) = part.maySend now
    (view s) len
  nextSendDeadline : ∀ now s, whole.nextSendDeadline now s = part.nextSendDeadline now (view s)
  onSendBytes : ∀ now s len, view (whole.onSendBytes now s len) = part.onSendBytes now
    (view s) len
  refundSendBytes : ∀ s bytes, view (whole.refundSendBytes s bytes) = part.refundSendBytes
    (view s) bytes
  trySendParity : ∀ now s len, Prod.map id view (whole.trySendParity now s len) =
    part.trySendParity now (view s) len
  release : ∀ s bytes, view (whole.release s bytes) = part.release (view s) bytes
  onAckBytes : ∀ now s bytes, view (whole.onAckBytes now s bytes) = part.onAckBytes now
    (view s) bytes
  onAckWithRtt : ∀ now s bytes rtt,
    view (whole.onAckWithRtt now s bytes rtt) = part.onAckWithRtt now (view s) bytes rtt
  onLoss : ∀ now s lost total, view (whole.onLoss now s lost total) = part.onLoss now
    (view s) lost total
  onRttSample : ∀ s rtt, view (whole.onRttSample s rtt) = part.onRttSample (view s) rtt
  rto : ∀ s, whole.rto s = part.rto (view s)

/-- The configuration with another controller. -/
def Config.withController (cfg : Config σ) (cc : CongestionControl τ) : Config τ :=
  { cfg with congestion := cc }

namespace Tunnel

/-- The part of `sendParity` after the congestion gate. -/
def transmitParity (cfg : Config σ) (env : Env) (k : Nat) (flushedGroupId : UInt16) (t : Tunnel σ)
    (parity : Bytes) (i : Nat) : Tunnel σ :=
  let plen := max parity.length 1
  let (hdr, t) := t.nextHeader .fec
  let hdr := { hdr with
    fecGroup := flushedGroupId
    fecIndex := UInt8.ofNat k + UInt8.ofNat i
    fecK := t.fecParams.k
    fecM := t.fecParams.m }
  match t.sealPacket cfg hdr parity with
  | (none, t) => t.refund cfg plen
  | (some wire, t) =>
      if PATH_MTU < wire.length + OUTER_OVERHEAD then
        { t with counters.txDroppedMtu := Counters.succ t.counters.txDroppedMtu }.refund cfg plen
      else if env.sendOk wire t.peer then t.noteTransmitted env hdr parity wire plen .parity
      else t.refund cfg plen

theorem sendParity_eq (cfg : Config σ) (env : Env) (k : Nat) (group : UInt16) (t : Tunnel σ)
    (parity : Bytes) (i : Nat) : t.sendParity cfg env k group parity i =
      match cfg.congestion.trySendParity env.now t.congestion (max parity.length 1) with
      | (false, congestion) => { t with
          congestion := congestion
          counters.txDroppedCongestion := Counters.succ t.counters.txDroppedCongestion }
      | (true, congestion) =>
          { t with congestion := congestion }.transmitParity cfg env k group parity i := by
  rw [sendParity]
  obtain ⟨admitted, congestion⟩ :=
    cfg.congestion.trySendParity env.now t.congestion (max parity.length 1)
  cases admitted with
  | false => rfl
  | true => rfl

/-- What `observePeerAcks` does with the answer of the reconciliation. -/
def noteReconciled (hdr : PacketHeader) (reconciled : Bool × Tunnel σ) : Tunnel σ :=
  let (sampled, t) := reconciled
  let t := if sampled then { t with counters.rttSamples := Counters.succ t.counters.rttSamples }
    else t
  { t with lastPeerAck := hdr.ackSeq, lastPeerBitmap := hdr.ackBitmap }

theorem observePeerAcks_eq (cfg : Config σ) (env : Env) (t : Tunnel σ) (hdr : PacketHeader) :
    t.observePeerAcks cfg env hdr =
      if hdr.ackSeq ≠ t.lastPeerAck ∨ hdr.ackBitmap ≠ t.lastPeerBitmap then
        noteReconciled hdr ({ t with
          session := t.session.observeAcks hdr.ackSeq hdr.ackBitmap }.reconcilePeerAcks cfg env)
      else t := rfl

/-- The tunnel as it is seen through a part of its controller's state. -/
def view (f : τ → σ) (t : Tunnel τ) : Tunnel σ := { t with congestion := f t.congestion }

variable {cfg : Config σ} {cc : CongestionControl τ} (f : τ → σ) (env : Env) (t : Tunnel τ)

@[simp]
theorem view_fecParams : (t.view f).fecParams = t.fecParams := rfl

@[simp]
theorem view_groupBuffer : (t.view f).groupBuffer = t.groupBuffer := rfl

@[simp]
theorem view_groupId : (t.view f).groupId = t.groupId := rfl

@[simp]
theorem view_groupIndex : (t.view f).groupIndex = t.groupIndex := rfl

@[simp]
theorem view_pendingOut : (t.view f).pendingOut = t.pendingOut := rfl

@[simp]
theorem view_congestion : (t.view f).congestion = f t.congestion := rfl

@[simp]
theorem view_sentPackets : (t.view f).sentPackets = t.sentPackets := rfl

@[simp]
theorem view_wireLossWindow : (t.view f).wireLossWindow = t.wireLossWindow := rfl

@[simp]
theorem view_sourceLossWindow : (t.view f).sourceLossWindow = t.sourceLossWindow := rfl

@[simp]
theorem view_rxGroups : (t.view f).rxGroups = t.rxGroups := rfl

@[simp]
theorem view_session : (t.view f).session = t.session := rfl

@[simp]
theorem withController_congestion : (cfg.withController cc).congestion = cc := rfl

@[simp]
theorem withController_fec : (cfg.withController cc).fec = cfg.fec := rfl

/-! ## Sending -/

variable (cc) in
theorem sealPacket_view (hdr : PacketHeader) (payload : Bytes) :
    (t.view f).sealPacket cfg hdr payload = Prod.map id (view f)
      (t.sealPacket (cfg.withController cc) hdr payload) := rfl

theorem sendPacket_view (ptype : PacketType) (payload : Bytes) :
    (t.view f).sendPacket cfg env ptype payload =
      (t.sendPacket (cfg.withController cc) env ptype payload).view f := by
  have head : (t.view f).nextHeader ptype = Prod.map id (view f) (t.nextHeader ptype) := rfl
  rw [sendPacket, sendPacket, head]
  obtain ⟨hdr, t⟩ := t.nextHeader ptype
  simp only [Prod.map, id, sealPacket_view cc]
  obtain ⟨_ | wire, t⟩ := t.sealPacket (cfg.withController cc) hdr payload
  · rfl
  · simp only [apply_ite (view f)]
    rfl

theorem sendControl_view (ptype : PacketType) (payload : Bytes) :
    (t.view f).sendControl cfg env ptype payload =
      (t.sendControl (cfg.withController cc) env ptype payload).view f := by
  have head : (t.view f).nextHeader ptype = Prod.map id (view f) (t.nextHeader ptype) := rfl
  rw [sendControl, sendControl, head]
  obtain ⟨hdr, t⟩ := t.nextHeader ptype
  simp only [Prod.map, id, sealPacket_view cc]
  obtain ⟨_ | wire, t⟩ := t.sealPacket (cfg.withController cc) hdr payload
  · rfl
  · simp only [apply_ite (view f)]
    rfl

theorem flushCoalescedAck_view : (t.view f).flushCoalescedAck cfg env =
    (t.flushCoalescedAck (cfg.withController cc) env).view f := by
  rw [flushCoalescedAck, flushCoalescedAck, apply_ite (view f), ← sendPacket_view]
  rfl

variable {f} (projects : cc.Projects cfg.congestion f)
include projects

theorem refund_view (len : Nat) :
    (t.view f).refund cfg len = (t.refund (cfg.withController cc) len).view f := by
  rw [refund, refund, view, view, ← projects.refundSendBytes]
  rfl

theorem transmitParity_view (k : Nat) (group : UInt16) (parity : Bytes) (i : Nat) :
    (t.view f).transmitParity cfg env k group parity i =
      (t.transmitParity (cfg.withController cc) env k group parity i).view f := by
  have head : (t.view f).nextHeader .fec = Prod.map id (view f) (t.nextHeader .fec) := rfl
  rw [transmitParity, transmitParity, head]
  obtain ⟨hdr, t⟩ := t.nextHeader .fec
  simp only [Prod.map, id, sealPacket_view cc, view_fecParams]
  generalize t.sealPacket (cfg.withController cc) _ parity = made
  obtain ⟨_ | wire, t⟩ := made
  · exact refund_view t projects _
  · simp only [apply_ite (view f), ← refund_view _ projects]
    rfl

theorem sendParity_view (k : Nat) (group : UInt16) (parity : Bytes) (i : Nat) :
    (t.view f).sendParity cfg env k group parity i =
      (t.sendParity (cfg.withController cc) env k group parity i).view f := by
  have asked : cfg.congestion.trySendParity env.now (t.view f).congestion (max parity.length 1) =
      Prod.map id f ((cfg.withController cc).congestion.trySendParity env.now t.congestion
        (max parity.length 1)) :=
    (projects.trySendParity env.now t.congestion (max parity.length 1)).symm
  rw [sendParity_eq, sendParity_eq, asked]
  obtain ⟨admitted, congestion⟩ :=
    (cfg.withController cc).congestion.trySendParity env.now t.congestion (max parity.length 1)
  cases admitted with
  | false => rfl
  | true =>
      exact transmitParity_view env { t with congestion := congestion } projects k group parity i

theorem flushFecGroup_view : (t.view f).flushFecGroup cfg env =
    (t.flushFecGroup (cfg.withController cc) env).view f := by
  have parities : ∀ (k : Nat) (group : UInt16) (ps : List (Bytes × Nat)) (t : Tunnel τ),
      ps.foldl (fun t p => t.sendParity cfg env k group p.1 p.2) (t.view f) =
        (ps.foldl (fun t p => t.sendParity (cfg.withController cc) env k group p.1 p.2) t).view f :=
    fun k group _ _ => List.foldl_hom (view f) fun t p =>
      sendParity_view env t projects k group p.1 p.2
  rw [flushFecGroup, flushFecGroup, apply_ite (view f), apply_ite (view f)]
  refine if_congr Iff.rfl rfl (if_congr Iff.rfl rfl ?_)
  simp only [view_fecParams, view_groupBuffer, view_groupId, withController_fec]
  cases cfg.fec.encode _ _ _ with
  | error _ => rfl
  | ok encoded =>
      exact parities t.fecParams.k.toNat t.groupId encoded.zipIdx
        { t with groupBuffer := [], groupIndex := 0, groupId := t.groupId + 1 }

theorem joinGroup_view (k : UInt8) (packet : Bytes) : (t.view f).joinGroup cfg env k packet =
    (t.joinGroup (cfg.withController cc) env k packet).view f := by
  rw [joinGroup, joinGroup, apply_ite (view f), ← flushFecGroup_view env _ projects]
  rfl

theorem sendData_view (packet : Bytes) (len : Nat) : (t.view f).sendData cfg env packet len =
    Prod.map id (view f) (t.sendData (cfg.withController cc) env packet len) := by
  have head : (t.view f).nextHeader .data = Prod.map id (view f) (t.nextHeader .data) := rfl
  rw [sendData, sendData, head]
  obtain ⟨hdr, t⟩ := t.nextHeader .data
  simp only [Prod.map_apply, id, sealPacket_view cc, view_fecParams, view_groupId, view_groupIndex]
  generalize t.sealPacket (cfg.withController cc) _ packet = made
  obtain ⟨_ | wire, t⟩ := made
  · exact congrArg (Prod.mk false) (refund_view t projects _)
  · simp only [apply_ite (Prod.map id (view f)), Prod.map_apply, id, ← refund_view _ projects,
      ← joinGroup_view env _ projects]
    rfl

theorem handleTunPacket_view (packet : Bytes) : (t.view f).handleTunPacket cfg env packet =
    Prod.map id (view f) (t.handleTunPacket (cfg.withController cc) env packet) := by
  have asked := projects.maySend env.now t.congestion (max packet.length 1)
  cases told : cc.maySend env.now t.congestion (max packet.length 1) with
  | mk admitted congestion =>
      rw [told, Prod.map_apply, id] at asked
      simp only [handleTunPacket, view_congestion,
        withController_congestion, ← projects.sendBudget, ← asked, told,
        apply_ite (Prod.map id (view f))]
      refine if_congr Iff.rfl rfl (if_congr Iff.rfl rfl (if_congr Iff.rfl rfl ?_))
      rw [← projects.onSendBytes]
      exact sendData_view env
        { t with congestion := cc.onSendBytes env.now congestion (max packet.length 1) }
        projects packet _

theorem parkIfPaced_view (packet : Bytes) : (t.view f).parkIfPaced cfg env packet =
    (t.parkIfPaced (cfg.withController cc) env packet).view f := by
  have ahead : cfg.congestion.nextSendDeadline env.now (t.view f).congestion =
      (cfg.withController cc).congestion.nextSendDeadline env.now t.congestion :=
    (projects.nextSendDeadline env.now t.congestion).symm
  rw [parkIfPaced, parkIfPaced, ahead]
  cases (cfg.withController cc).congestion.nextSendDeadline env.now t.congestion with
  | none => rfl
  | some deadline => rfl

theorem onTun_view (packet : Bytes) : (t.view f).onTun cfg env packet =
    (t.onTun (cfg.withController cc) env packet).view f := by
  have handled := handleTunPacket_view env (t.park none none) projects packet
  have cleared : (t.view f).park none none = (t.park none none).view f := rfl
  rw [onTun, onTun, cleared, handled]
  obtain ⟨sent, t⟩ := (t.park none none).handleTunPacket (cfg.withController cc) env packet
  cases sent with
  | false => exact parkIfPaced_view env t projects packet
  | true => rfl

theorem retryPending_view : (t.view f).retryPending cfg env =
    (t.retryPending (cfg.withController cc) env).view f := by
  rw [retryPending, retryPending, view_pendingOut]
  cases t.pendingOut with
  | none => rfl
  | some packet =>
      have handled := handleTunPacket_view env (t.park none t.pendingDeadline) projects packet
      have taken : (t.view f).park none (t.view f).pendingDeadline =
        (t.park none t.pendingDeadline).view f := rfl
      simp only [taken, handled]
      obtain ⟨sent, t⟩ :=
        (t.park none t.pendingDeadline).handleTunPacket (cfg.withController cc) env packet
      cases sent with
      | false => exact parkIfPaced_view env (t.park t.pendingOut none) projects packet
      | true => rfl

/-! ## Acknowledged and lost packets -/

theorem resolve_view (seq : UInt32) (sent : SentPacket) : (t.view f).resolve cfg env seq sent =
    t.resolve (cfg.withController cc) env seq sent := by
  simp only [resolve, view_congestion, withController_congestion, ← projects.rto]
  rfl

theorem noteResolved_view (acked : Bool) (kind : SentPacketKind) :
    (t.view f).noteResolved cfg env acked kind =
      (t.noteResolved (cfg.withController cc) env acked kind).view f := by
  have lost := projects.onLoss env.now t.congestion
  cases wire : t.wireLossWindow.record (!acked) LOSS_SAMPLE_PACKETS with
  | mk report wireWindow =>
      cases source : t.sourceLossWindow.record (!acked) LOSS_SAMPLE_SOURCES with
      | mk told sourceWindow =>
          simp only [noteResolved, view_wireLossWindow, wire, apply_ite (view f)]
          cases report with
          | none =>
              simp only [view_sourceLossWindow, source]
              cases told with
              | none => rfl
              | some counts => rfl
          | some counts =>
              simp only [view_congestion, withController_congestion, view_sourceLossWindow,
                source, ← lost]
              cases told with
              | none => rfl
              | some counts => rfl

omit t in
theorem retire_view (congestion : τ) (acked lost : Nat) (rtt : Option Duration) :
    f (retire (cfg.withController cc) env congestion acked lost rtt) =
      retire cfg env (f congestion) acked lost rtt := by
  cases rtt with
  | none =>
      simp only [retire, withController_congestion, apply_ite f, projects.release,
        projects.onAckBytes]
  | some rtt =>
      simp only [retire, withController_congestion, apply_ite f, projects.release,
        projects.onAckWithRtt]

theorem reconcilePeerAcks_view : (t.view f).reconcilePeerAcks cfg env =
    Prod.map id (view f) (t.reconcilePeerAcks (cfg.withController cc) env) := by
  have settle : ∀ (resolved : List (UInt32 × Bool × SentPacket)) (t : Tunnel τ),
      resolved.foldl (fun t r => t.noteResolved cfg env r.2.1 r.2.2.kind) (t.view f) =
        (resolved.foldl (fun t r => t.noteResolved (cfg.withController cc) env r.2.1 r.2.2.kind)
          t).view f :=
    fun _ _ => List.foldl_hom (view f) fun t r => noteResolved_view env t projects r.2.1 r.2.2.kind
  have resolved : (t.view f).resolvedNow cfg env = t.resolvedNow (cfg.withController cc) env := by
    simp only [resolvedNow, view_sentPackets, resolve_view env t projects]
  rw [reconcilePeerAcks_resolved cfg env (t.view f) resolved,
    reconcilePeerAcks_resolved (cfg.withController cc) env t rfl, Prod.map_apply, ← settle]
  simp only [view_congestion, ← retire_view env projects]
  rfl

theorem checkRetransmits_view : (t.view f).checkRetransmits cfg env =
    (t.checkRetransmits (cfg.withController cc) env).view f := by
  rw [checkRetransmits, checkRetransmits, reconcilePeerAcks_view env t projects]
  obtain ⟨sampled, t⟩ := t.reconcilePeerAcks (cfg.withController cc) env
  simp only [Prod.map_apply, id, view_congestion, withController_congestion, ← projects.rto]
  rfl

/-! ## Receiving -/

omit projects in
theorem recoverGroup_view (group : UInt16) : (t.view f).recoverGroup cfg env group =
    (t.recoverGroup (cfg.withController cc) env group).view f := by
  simp only [recoverGroup, view_rxGroups, withController_fec]
  cases t.rxGroups.lookup group with
  | none => rfl
  | some entry =>
      simp only [apply_ite (view f)]
      refine if_congr Iff.rfl rfl ?_
      cases cfg.fec.decode entry.k.toNat entry.m.toNat entry.symbols with
      | error _ => rfl
      | ok recovered => rfl

omit projects in
theorem recordRxSymbol_view (hdr : PacketHeader) (payload : Bytes) (isData : Bool) :
    (t.view f).recordRxSymbol cfg env hdr payload isData =
      (t.recordRxSymbol (cfg.withController cc) env hdr payload isData).map (view f) := by
  simp only [recordRxSymbol, view_rxGroups, apply_ite (Option.map (view f)), Option.map_map]
  refine if_congr Iff.rfl rfl (congrArg (fun g => Option.map g _) (funext fun entry => ?_))
  simp only [Function.comp_apply, apply_ite (view f), ← recoverGroup_view env]
  rfl

omit projects in
theorem handleData_view (hdr : PacketHeader) (payload : Bytes) :
    (t.view f).handleData cfg env hdr payload =
      (t.handleData (cfg.withController cc) env hdr payload).map (view f) := by
  simp only [handleData, apply_ite (Option.map (view f)), ← recordRxSymbol_view env]
  rfl

omit projects in
theorem handleParity_view (hdr : PacketHeader) (payload : Bytes) :
    (t.view f).handleParity cfg env hdr payload =
      (t.handleParity (cfg.withController cc) env hdr payload).map (view f) := by
  simp only [handleParity, apply_ite (Option.map (view f)), ← recordRxSymbol_view env]
  rfl

theorem handlePong_view (payload : Bytes) : (t.view f).handlePong cfg env payload =
    (t.handlePong (cfg.withController cc) env payload).view f := by
  simp only [handlePong, view_congestion, withController_congestion,
    apply_ite (view f), ← projects.onRttSample]
  rfl

theorem observePeerAcks_view (hdr : PacketHeader) : (t.view f).observePeerAcks cfg env hdr =
    (t.observePeerAcks (cfg.withController cc) env hdr).view f := by
  rw [observePeerAcks_eq, observePeerAcks_eq, apply_ite (view f)]
  refine if_congr Iff.rfl ?_ rfl
  have reconciled := reconcilePeerAcks_view env
    { t with session := t.session.observeAcks hdr.ackSeq hdr.ackBitmap }
    projects
  refine (congrArg (noteReconciled hdr) reconciled).trans ?_
  obtain ⟨sampled, t⟩ := reconcilePeerAcks (cfg.withController cc) env
    { t with session := t.session.observeAcks hdr.ackSeq hdr.ackBitmap }
  cases sampled with
  | false => rfl
  | true => rfl

omit projects in
theorem noteReceived_view (hdr : PacketHeader) : (t.view f).noteReceived cfg env hdr =
    (t.noteReceived (cfg.withController cc) env hdr).view f := by
  simp only [noteReceived, apply_ite (view f), ← sendPacket_view]
  rfl

theorem dispatch_view (hdr : PacketHeader) (payload : Bytes) :
    (t.view f).dispatch cfg env hdr payload =
      (t.dispatch (cfg.withController cc) env hdr payload).map (view f) := by
  unfold dispatch
  cases hdr.packetType with
  | data => exact handleData_view env t hdr payload
  | fec => exact handleParity_view env t hdr payload
  | ping => exact congrArg some (sendPacket_view f env t .pong payload)
  | pong => exact congrArg some (handlePong_view env t projects payload)
  | _ => rfl

theorem acceptPacket_view (source : SocketAddr) (hdr : PacketHeader) (payload : Bytes) :
    (t.view f).acceptPacket cfg env source hdr payload =
      (t.acceptPacket (cfg.withController cc) env source hdr payload).map (view f) := by
  have followed : ∀ t : Tunnel τ, (t.view f).followPeer cfg source =
      (t.followPeer (cfg.withController cc) source).view f := by
    intro t
    rw [followPeer, followPeer, apply_ite (view f)]
    rfl
  have seen : (((t.view f).observePeerAcks cfg env hdr).followPeer cfg source).noteReceived cfg env
    hdr = (((t.observePeerAcks (cfg.withController cc) env hdr).followPeer (cfg.withController cc)
    source).noteReceived (cfg.withController cc) env hdr).view f := by
    rw [observePeerAcks_view env t projects, followed, noteReceived_view]
  simp only [acceptPacket, seen, apply_ite (Option.map (view f)), view_session]
  generalize noteReceived (cfg.withController cc) env _ hdr = t
  refine if_congr Iff.rfl ?_ ?_
  · obtain ⟨fresh, session⟩ := t.session.receiveReliable hdr.seq
    cases fresh with
    | false => rfl
    | true =>
        exact dispatch_view env ({ t with session := session }.countReceived payload)
          projects hdr payload
  · exact dispatch_view env (t.countReceived payload) projects hdr payload

theorem handleUdpDatagram_view (datagram : Bytes) (source : SocketAddr) :
    (t.view f).handleUdpDatagram cfg env datagram source =
      (t.handleUdpDatagram (cfg.withController cc) env datagram source).map (view f) := by
  have opened : (cfg.withController cc).openDatagram t.session.id datagram =
      cfg.openDatagram t.session.id datagram := rfl
  rw [handleUdpDatagram, handleUdpDatagram, opened, view_session]
  cases cfg.openDatagram t.session.id datagram with
  | error _ => rfl
  | ok received => exact acceptPacket_view env t projects source received.1 received.2

/-! ## Turns and runs -/

omit projects in
theorem closeAndExit_view (exit : TunnelExit) : (t.view f).closeAndExit cfg env exit =
    (t.closeAndExit (cfg.withController cc) env exit).view f := by
  rw [closeAndExit, closeAndExit, sendControl_view]
  rfl

theorem handleEvent_view (event : Event) : (t.view f).handleEvent cfg env event =
    (t.handleEvent (cfg.withController cc) env event).map (view f) := by
  cases event with
  | stop requested =>
      cases requested with
      | false => rfl
      | true => exact congrArg some (closeAndExit_view env t .stopped)
  | tun packet => exact congrArg some (onTun_view env t projects packet)
  | tunError => rfl
  | pacerRetry =>
      simp only [handleEvent, Option.map_some,
        apply_ite (view f), ← retryPending_view env t projects]
      rfl
  | datagram bytes source =>
      simp only [handleEvent, handleUdpDatagram_view env t projects, Option.map_map,
        Function.comp_def, apply_ite (view f)]
      rfl
  | udpClosed => rfl
  | ping => exact congrArg some (sendPacket_view f env { t with pingSeq := t.pingSeq + 1 } .ping _)
  | fecTick =>
      have flushed : (t.view f).flushFecGroupIfStale cfg env =
          (t.flushFecGroupIfStale (cfg.withController cc) env).view f := by
        rw [flushFecGroupIfStale, flushFecGroupIfStale,
          apply_ite (view f), ← flushFecGroup_view env t projects]
        rfl
      exact congrArg (fun t => some (evictExpiredRxGroups env t)) flushed
  | rtoTick => exact congrArg some (checkRetransmits_view env t projects)
  | ackTick => exact congrArg some (flushCoalescedAck_view f env t)
  | keepalive => exact congrArg some (sendPacket_view f env t .keepalive _)
  | timeoutCheck =>
      simp only [handleEvent, Option.map_some, apply_ite (view f), ← closeAndExit_view env t]
      rfl
  | evict => exact congrArg some (closeAndExit_view env t .peerClosed)

/-- A turn of the tunnel with the one controller is seen as the same turn with the other. -/
theorem step_view (turn : Env × Event) : step cfg (t.view f) turn =
    (step (cfg.withController cc) t turn).map (view f) := by
  rw [step, step, apply_ite (Option.map (view f)), ← handleEvent_view turn.1 t projects]
  rfl

/-- And so is a run. -/
theorem run_view (turns : List (Env × Event)) : run cfg (t.view f) turns =
    (run (cfg.withController cc) t turns).map (view f) :=
  Runs.run_map (fun t turn => step_view t projects turn) t turns

end Tunnel

end Rustnies
