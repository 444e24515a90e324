import Rustnies.Tunnel.Fates
import Rustnies.Tunnel.Groups

/-! # The path MTU

`MAX_PAYLOAD` is counted with the fixed header. A datagram pays for the longest header of
its codec, the tag of the cipher, the padding and the marker of the transport; with padding
up to 1400 bytes the sum stays within `PATH_MTU` for every packet that the device may hand
over, and the parity of a group is no longer than its longest packet. Neither limit is ever
reached in a run.
-/

namespace Rustnies

variable {σ : Type}

/-- `effective_tun_mtu`. -/
def effectiveTunMtu (configured : UInt32) : UInt32 :=
  max (min configured (UInt32.ofNat MAX_PAYLOAD)) 576

theorem effectiveTunMtu_le (configured : UInt32) :
    (effectiveTunMtu configured).toNat ≤ MAX_PAYLOAD := by
  have raised : effectiveTunMtu configured = if min configured (UInt32.ofNat MAX_PAYLOAD) ≤
    576 then 576
      else min configured (UInt32.ofNat MAX_PAYLOAD) := rfl
  have capped : min configured (UInt32.ofNat MAX_PAYLOAD) =
      if configured ≤ UInt32.ofNat MAX_PAYLOAD then configured else UInt32.ofNat MAX_PAYLOAD :=
      rfl
  rw [raised]
  split
  · decide
  · rw [capped]
    split
    · rename_i below
      exact UInt32.le_iff_toNat_le.mp below
    · decide

/-- The cipher adds its tag and nothing more. -/
def Aead.AddsTag {β : Type} (aead : Aead β) : Prop :=
  ∀ key nonce aad message sealed_, aead.encrypt key nonce aad message = some sealed_ →
    sealed_.length = message.length + TAG_LEN

/-- What a session adds to a packet is bounded: by the tag, and by padding up to 1400 bytes. -/
structure Config.Compact (cfg : Config σ) : Prop where
  cipher : cfg.aead.AddsTag
  pads : cfg.obfuscation.PadsOnce 1400

theorem FrameCodec.maxHeaderLen_le (codec : FrameCodec) : codec.maxHeaderLen ≤ 49 := by
  cases codec with
  | v1Fixed => decide
  | v2Tlv => decide

theorem Config.Compact.wire_fits {cfg : Config σ} (compact : cfg.Compact)
    {key nonce aad payload ciphertext : Bytes} (short : payload.length ≤ MAX_PAYLOAD)
    (sealed_ : cfg.aead.encrypt key nonce aad payload = some ciphertext) (hdr : PacketHeader) :
    (cfg.wrapFrame (cfg.codec.encodeFrame hdr ciphertext)).length + OUTER_OVERHEAD ≤
    PATH_MTU := by
  have tag := compact.cipher _ _ _ _ _ sealed_
  have header := Nat.le_trans (cfg.codec.encodeHeader_length_le hdr) cfg.codec.maxHeaderLen_le
  have frame : (cfg.codec.encodeFrame hdr ciphertext).length =
      (cfg.codec.encodeHeader hdr).length + ciphertext.length := List.length_append
  have layers := compact.pads.apply_length_le (cfg.codec.encodeFrame hdr ciphertext)
  have marker : (cfg.wrapFrame (cfg.codec.encodeFrame hdr ciphertext)).length ≤ _ :=
    cfg.transport.wrap_length_le
      (ObfuscationStack.apply cfg.obfuscation (cfg.codec.encodeFrame hdr ciphertext))
  simp only [MAX_PAYLOAD, HEADER_LEN, AEAD_TAG_LEN, TAG_LEN, LEN_PREFIX] at *
  simp only [OUTER_OVERHEAD, PATH_MTU, UDP_HEADER_LEN, IPV4_HEADER_LEN]
  omega

namespace Tunnel

/-- The drops for size so far, with no packet at hand that could be another. -/
structure Spared (drops : UInt64) (t : Tunnel σ) : Prop where
  drops : t.counters.txDroppedMtu = drops
  group : ∀ p ∈ t.groupBuffer, p.length ≤ MAX_PAYLOAD
  parked : ∀ p, t.pendingOut = some p → p.length ≤ MAX_PAYLOAD

variable {cfg : Config σ} {env : Env} {t t' : Tunnel σ} {drops : UInt64}

theorem Spared.of_same (spared : t.Spared drops)
    (dropped : t'.counters.txDroppedMtu = t.counters.txDroppedMtu)
    (group : t'.groupBuffer = t.groupBuffer) (parked : t'.pendingOut = t.pendingOut) :
    t'.Spared drops :=
  ⟨dropped.trans spared.drops, group ▸ spared.group, parked ▸ spared.parked⟩

/-! ## Sending -/

theorem Spared.sealPacket (spared : t.Spared drops) {ptype : PacketType} {hdr : PacketHeader}
    {payload : Bytes} {wire : Option Bytes}
    (made : (t.nextHeader ptype).2.sealPacket cfg hdr payload = (wire, t')) :
    t'.Spared drops := by
  cases made
  exact spared.of_same rfl rfl rfl

theorem Spared.sendPacket (spared : t.Spared drops) (ptype : PacketType) (payload : Bytes) :
    (t.sendPacket cfg env ptype payload).Spared drops := by
  simp only [Tunnel.sendPacket]
  split
  · rename_i mid made
    exact spared.sealPacket made
  · rename_i wire mid made
    have sealed_ := spared.sealPacket made
    split
    · exact sealed_.of_same rfl rfl rfl
    · exact sealed_

theorem Spared.sendControl (spared : t.Spared drops) (ptype : PacketType) (payload : Bytes) :
    (t.sendControl cfg env ptype payload).Spared drops := by
  simp only [Tunnel.sendControl]
  split
  · rename_i mid made
    exact spared.sealPacket made
  · rename_i wire mid made
    have sealed_ := spared.sealPacket made
    split
    · split
      · exact sealed_.of_same rfl rfl rfl
      · exact sealed_.of_same rfl rfl rfl
    · exact sealed_

/-- A packet within the payload limit passes the second guard too. -/
theorem sealPacket_fits (compact : cfg.Compact) {hdr : PacketHeader} {payload wire : Bytes}
    (short : payload.length ≤ MAX_PAYLOAD)
    (made : t.sealPacket cfg hdr payload = (some wire, t')) :
    wire.length + OUTER_OVERHEAD ≤ PATH_MTU := by
  obtain ⟨ciphertext, sealed_, rfl⟩ := Option.map_eq_some_iff.mp (congrArg Prod.fst made)
  exact compact.wire_fits short sealed_ hdr

section Data

variable (compact : cfg.Compact)

include compact

theorem Spared.sendParity (spared : t.Spared drops) (k : Nat) (group : UInt16) {parity : Bytes}
    (short : parity.length ≤ MAX_PAYLOAD) (i : Nat) :
    (t.sendParity cfg env k group parity i).Spared drops := by
  have asked : Tunnel.Spared drops { t with
      congestion := (cfg.congestion.trySendParity env.now t.congestion (max parity.length 1)).2 } :=
    spared.of_same rfl rfl rfl
  simp only [Tunnel.sendParity]
  split
  · exact asked.of_same rfl rfl rfl
  · split
    · rename_i mid made
      exact (asked.sealPacket made).of_same rfl rfl rfl
    · rename_i wire mid made
      have sealed_ := asked.sealPacket made
      rw [if_neg (Nat.not_lt.mpr (sealPacket_fits compact short made))]
      split
      · exact sealed_.of_same rfl rfl rfl
      · exact sealed_.of_same rfl rfl rfl

theorem Spared.flushFecGroup (spared : t.Spared drops) :
    (t.flushFecGroup cfg env).Spared drops := by
  have parities : ∀ (k : Nat) (group : UInt16) (ps : List (Bytes × Nat)) (t : Tunnel σ),
    t.Spared drops → (∀ p ∈ ps, p.1.length ≤ MAX_PAYLOAD) →
      (ps.foldl (fun t p => t.sendParity cfg env k group p.1 p.2) t).Spared drops := by
    intro k group ps
    induction ps with
    | nil => exact fun t spared _ => spared
    | cons p ps ih =>
        intro t spared short
        have first : (t.sendParity cfg env k group p.1 p.2).Spared drops :=
          spared.sendParity compact k group (short p List.mem_cons_self) p.2
        exact ih _ first fun q member => short q (List.mem_cons_of_mem _ member)
  have opened : Tunnel.Spared drops { t with groupBuffer := [], groupIndex := 0, groupId :=
    t.groupId + 1 } :=
    ⟨spared.drops, nofun, spared.parked⟩
  simp only [Tunnel.flushFecGroup]
  split
  · exact spared
  · split
    · exact opened
    · rename_i active
      split
      · exact opened
      · rename_i ps encoded
        refine parities _ _ _ _ opened fun p member => ?_
        have made : (⟨.fec, t.groupId, UInt8.ofNat t.fecParams.k.toNat + UInt8.ofNat p.2,
          t.fecParams.k, t.fecParams.m, p.1⟩ : FecPacket) ∈ parityPackets cfg.fec t.fecParams
          t.groupId t.groupBuffer := by
          rw [parityPackets, if_neg active, encoded]
          exact List.mem_map.mpr ⟨p, member, rfl⟩
        exact (length_of_mem_parity made).trans_le (groupLen_le spared.group)

theorem Spared.joinGroup (spared : t.Spared drops) (k : UInt8) {packet : Bytes}
    (short : packet.length ≤ MAX_PAYLOAD) : (t.joinGroup cfg env k packet).Spared drops := by
  have joined : Tunnel.Spared drops
      { t with groupBuffer := t.groupBuffer ++ [packet], groupIndex := t.groupIndex + 1 } := by
    refine ⟨spared.drops, fun p member => ?_, spared.parked⟩
    rcases List.mem_append.mp member with old | new
    · exact spared.group p old
    · rw [List.mem_singleton.mp new]
      exact short
  simp only [Tunnel.joinGroup]
  split
  · exact joined.flushFecGroup compact
  · exact joined

theorem Spared.sendData (spared : t.Spared drops) {packet : Bytes}
    (short : packet.length ≤ MAX_PAYLOAD) (len : Nat) :
    (t.sendData cfg env packet len).2.Spared drops := by
  rw [sendData_eq]
  split
  · rename_i mid made
    exact (spared.sealPacket made).of_same rfl rfl rfl
  · rename_i wire mid made
    have sealed_ := spared.sealPacket made
    rw [if_neg (Nat.not_lt.mpr (sealPacket_fits compact short made))]
    split
    · have recorded : (mid.noteTransmitted env t.dataHeader packet wire len .data).Spared drops :=
        sealed_.of_same rfl rfl rfl
      exact recorded.joinGroup compact _ short
    · exact sealed_.of_same rfl rfl rfl

theorem Spared.handleTunPacket (spared : t.Spared drops) {packet : Bytes}
    (short : packet.length ≤ MAX_PAYLOAD) :
    (t.handleTunPacket cfg env packet).2.Spared drops := by
  simp only [Tunnel.handleTunPacket, if_neg (Nat.not_lt.mpr short)]
  split
  · exact spared.of_same rfl rfl rfl
  · split
    · exact spared.of_same rfl rfl rfl
    · have reserved : Tunnel.Spared drops { t with
          congestion := cfg.congestion.onSendBytes env.now
            (cfg.congestion.maySend env.now t.congestion (max packet.length 1)).2
              (max packet.length 1) } :=
        spared.of_same rfl rfl rfl
      exact reserved.sendData compact short _

end Data

/-! ## Acknowledgements and losses -/

theorem Spared.noteResolved (spared : t.Spared drops) (acked : Bool) (kind : SentPacketKind) :
    (t.noteResolved cfg env acked kind).Spared drops := by
  simp only [Tunnel.noteResolved, applyFecParams]
  rcases t.wireLossWindow.record (!acked) LOSS_SAMPLE_PACKETS with ⟨_ | ⟨lost, total⟩, w⟩
  · split
    · split
      · exact spared.of_same rfl rfl rfl
      · exact spared.of_same rfl rfl rfl
    · exact spared.of_same rfl rfl rfl
  · split
    · split
      · exact spared.of_same rfl rfl rfl
      · exact spared.of_same rfl rfl rfl
    · exact spared.of_same rfl rfl rfl

theorem Spared.reconcilePeerAcks (spared : t.Spared drops) :
    (t.reconcilePeerAcks cfg env).2.Spared drops := by
  have windows : ∀ (resolved : List (UInt32 × Bool × SentPacket)) (t : Tunnel σ),
      t.Spared drops →
      (resolved.foldl (fun t r => t.noteResolved cfg env r.2.1 r.2.2.kind) t).Spared drops := by
    intro resolved
    induction resolved with
    | nil => exact fun t spared => spared
    | cons r resolved ih => exact fun t spared => ih _ (spared.noteResolved r.2.1 r.2.2.kind)
  obtain ⟨acked, lost, rtt, -, -, same⟩ := reconcilePeerAcks_eq cfg env t
  rw [same]
  exact windows _ _ (spared.of_same rfl rfl rfl)

theorem Spared.observePeerAcks (spared : t.Spared drops) (hdr : PacketHeader) :
    (t.observePeerAcks cfg env hdr).Spared drops := by
  have observed : Tunnel.Spared drops { t with
      session := t.session.observeAcks hdr.ackSeq hdr.ackBitmap } :=
    spared.of_same rfl rfl rfl
  simp only [Tunnel.observePeerAcks]
  split
  · have reconciled : (Tunnel.reconcilePeerAcks cfg env
        { t with session := t.session.observeAcks hdr.ackSeq hdr.ackBitmap }).2.Spared drops :=
        observed.reconcilePeerAcks
    split
    · exact reconciled.of_same rfl rfl rfl
    · exact reconciled.of_same rfl rfl rfl
  · exact spared

/-! ## Receiving -/

theorem Spared.followPeer (spared : t.Spared drops) (source : SocketAddr) :
    (t.followPeer cfg source).Spared drops := by
  simp only [Tunnel.followPeer]
  split
  · exact spared.of_same rfl rfl rfl
  · exact spared

theorem Spared.noteReceived (spared : t.Spared drops) (hdr : PacketHeader) :
    (t.noteReceived cfg env hdr).Spared drops := by
  have noted : Tunnel.Spared drops { t with
      lastPeerActivity := env.now
      session := { t.session with ack := t.session.ack.record hdr.seq }
      rxSinceAck := 0 } := spared.of_same rfl rfl rfl
  simp only [Tunnel.noteReceived]
  split
  · split
    · exact noted.sendPacket .ack []
    · exact spared.of_same rfl rfl rfl
  · exact spared.of_same rfl rfl rfl

theorem Spared.recordRxSymbol (spared : t.Spared drops) {hdr : PacketHeader} {payload : Bytes}
    {isData : Bool} (kind : isData = decide (hdr.packetType = .data))
    (done : t.recordRxSymbol cfg env hdr payload isData = some t') : t'.Spared drops := by
  rw [recordRxSymbol_eq cfg env t hdr payload isData kind] at done
  obtain ⟨arrived, -, rfl⟩ := Option.map_eq_some_iff.mp done
  exact spared.of_same rfl rfl rfl

theorem Spared.dispatch (spared : t.Spared drops) {hdr : PacketHeader} {payload : Bytes}
    (done : t.dispatch cfg env hdr payload = some t') : t'.Spared drops := by
  cases kind : hdr.packetType with
  | data =>
      have data : true = decide (hdr.packetType = .data) := by rw [kind]; rfl
      have written : (t.writeTun ⟨.data hdr, payload⟩).Spared drops :=
        spared.of_same rfl rfl rfl
      simp only [Tunnel.dispatch, kind, handleData] at done
      split at done
      · exact spared.recordRxSymbol data done
      · split at done
        · exact written.recordRxSymbol data done
        · cases done
          exact written
  | fec =>
      have parity : false = decide (hdr.packetType = .data) := by rw [kind]; rfl
      simp only [Tunnel.dispatch, kind, handleParity] at done
      split at done
      · cases done
        exact spared
      · exact spared.recordRxSymbol parity done
  | ping =>
      simp only [Tunnel.dispatch, kind, Option.some.injEq] at done
      rw [← done]
      exact spared.sendPacket .pong payload
  | pong =>
      simp only [Tunnel.dispatch, kind, Option.some.injEq, handlePong] at done
      rw [← done]
      split
      · exact spared
      · split
        · exact spared.of_same rfl rfl rfl
        · exact spared
  | close =>
      simp only [Tunnel.dispatch, kind, Option.some.injEq] at done
      rw [← done]
      exact spared.of_same rfl rfl rfl
  | _ =>
      simp only [Tunnel.dispatch, kind, Option.some.injEq] at done
      rw [← done]
      exact spared

theorem Spared.acceptPacket (spared : t.Spared drops) {source : SocketAddr} {hdr : PacketHeader}
    {payload : Bytes} (done : t.acceptPacket cfg env source hdr payload = some t') :
    t'.Spared drops := by
  have observed : (t.observePeerAcks cfg env hdr).Spared drops := spared.observePeerAcks hdr
  have followed : ((t.observePeerAcks cfg env hdr).followPeer cfg source).Spared drops :=
    observed.followPeer source
  have before :
    (((t.observePeerAcks cfg env hdr).followPeer cfg source).noteReceived cfg env hdr).Spared
    drops :=
    followed.noteReceived hdr
  simp only [Tunnel.acceptPacket] at done
  generalize (((t.observePeerAcks cfg env hdr).followPeer cfg source).noteReceived cfg env
    hdr) = mid at done before
  have counted : ∀ session : Session,
    ({ mid with session := session }.countReceived payload).Spared drops :=
    fun _ => before.of_same rfl rfl rfl
  split at done
  · split at done
    · cases done
      exact before.of_same rfl rfl rfl
    · exact (counted _).dispatch done
  · exact (counted mid.session).dispatch done

/-! ## Turns -/

theorem Spared.closeAndExit (spared : t.Spared drops) (exit : TunnelExit) :
    (t.closeAndExit cfg env exit).Spared drops := by
  have closed : (t.sendControl cfg env .close []).Spared drops := spared.sendControl .close []
  exact closed.of_same rfl rfl rfl

theorem Spared.parkIfPaced (spared : t.Spared drops) {packet : Bytes}
    (short : packet.length ≤ MAX_PAYLOAD) (deadline : Option Instant) :
    ((t.park t.pendingOut deadline).parkIfPaced cfg env packet).Spared drops := by
  simp only [Tunnel.parkIfPaced]
  split
  · refine ⟨spared.drops, spared.group, fun p parked => ?_⟩
    cases parked
    exact short
  · exact spared.of_same rfl rfl rfl

theorem Spared.unpark (spared : t.Spared drops) (deadline : Option Instant) :
    (t.park none deadline).Spared drops :=
  ⟨spared.drops, spared.group, nofun⟩

section Turn

variable (compact : cfg.Compact)

include compact

theorem Spared.onTun (spared : t.Spared drops) {packet : Bytes}
    (short : packet.length ≤ MAX_PAYLOAD) :
    (t.onTun cfg env packet).Spared drops := by
  have handled : ((t.park none none).handleTunPacket cfg env packet).2.Spared drops :=
    (spared.unpark none).handleTunPacket compact short
  simp only [Tunnel.onTun]
  split
  · rename_i mid sent
    rwa [sent] at handled
  · rename_i mid unsent
    rw [unsent] at handled
    exact handled.parkIfPaced short mid.pendingDeadline

theorem Spared.retryPending (spared : t.Spared drops) : (t.retryPending cfg env).Spared drops := by
  simp only [Tunnel.retryPending]
  split
  · exact spared.unpark none
  · rename_i packet parked
    have short := spared.parked packet parked
    have handled : ((t.park none t.pendingDeadline).handleTunPacket cfg env packet).2.Spared
      drops :=
      (spared.unpark t.pendingDeadline).handleTunPacket compact short
    split
    · rename_i mid sent
      rw [sent] at handled
      exact handled.of_same rfl rfl rfl
    · rename_i mid unsent
      rw [unsent] at handled
      exact handled.parkIfPaced short none

/-- A turn in which the device hands over no packet above the payload limit drops none for
    its size. -/
theorem Spared.step (spared : t.Spared drops) {turn : Env × Event}
    (short : ∀ packet, turn.2 = .tun packet → packet.length ≤ MAX_PAYLOAD)
    (stepped : Tunnel.step cfg t turn = some t') : t'.Spared drops := by
  cases exited : t.exit with
  | some exit =>
      rw [step_exited turn (by rw [exited]; rfl)] at stepped
      cases stepped
      exact spared
  | none =>
      obtain ⟨env, e⟩ := turn
      rw [step_running _ exited] at stepped
      cases e with
      | tun packet =>
          cases stepped
          exact spared.onTun compact (short packet rfl)
      | pacerRetry =>
          cases stepped
          split
          · exact spared.retryPending compact
          · exact spared
      | fecTick =>
          cases stepped
          have flushed : (t.flushFecGroupIfStale cfg env).Spared drops := by
            simp only [flushFecGroupIfStale]
            split
            · exact spared
            · exact spared.flushFecGroup compact
          exact flushed.of_same rfl rfl rfl
      | datagram bytes source =>
          obtain ⟨mid, handled, rfl⟩ := Option.map_eq_some_iff.mp stepped
          simp only [handleUdpDatagram] at handled
          have accepted : mid.Spared drops := by
            split at handled
            · cases handled
              exact spared
            · exact spared.acceptPacket handled
          split
          · exact accepted.of_same rfl rfl rfl
          · exact accepted
      | rtoTick =>
          cases stepped
          have reconciled : (t.reconcilePeerAcks cfg env).2.Spared drops := spared.reconcilePeerAcks
          exact reconciled.of_same rfl rfl rfl
      | stop requested =>
          cases stepped
          split
          · exact spared.closeAndExit _
          · exact spared
      | timeoutCheck =>
          cases stepped
          split
          · exact spared.closeAndExit _
          · exact spared
      | evict =>
          cases stepped
          exact spared.closeAndExit _
      | ping =>
          cases stepped
          have counted : Tunnel.Spared drops { t with pingSeq := t.pingSeq + 1 } :=
            spared.of_same rfl rfl rfl
          exact counted.sendPacket .ping _
      | ackTick =>
          cases stepped
          have cleared : Tunnel.Spared drops { t with rxSinceAck := 0 } :=
            spared.of_same rfl rfl rfl
          simp only [flushCoalescedAck]
          split
          · exact cleared.sendPacket .ack []
          · exact spared
      | keepalive =>
          cases stepped
          exact spared.sendPacket .keepalive _
      | tunError =>
          cases stepped
          exact spared.of_same rfl rfl rfl
      | udpClosed =>
          cases stepped
          exact spared.of_same rfl rfl rfl

theorem Spared.run (spared : t.Spared drops) {turns : List (Env × Event)}
    (short : ∀ turn ∈ turns, ∀ packet, turn.2 = .tun packet → packet.length ≤ MAX_PAYLOAD)
    (ran : Tunnel.run cfg t turns = some t') : t'.Spared drops := by
  have along : Runs.Along (Tunnel.step cfg)
      (fun _ turn => ∀ packet, turn.2 = .tun packet → packet.length ≤ MAX_PAYLOAD) t turns :=
      Runs.along_of_mem short
  exact Runs.invariant_along (Spared drops)
    (fun _ _ _ short stepped spared => spared.step compact short stepped) along ran spared

end Turn

theorem spared_start (fec : FecConfig) (peer : SocketAddr) (session : Session) (congestion : σ)
    (now : Instant) :
    ((Tunnel.fromHandshake peer session congestion now).configureFec cfg fec).Spared 0 := by
  obtain ⟨adaptive, params, same⟩ :=
    Tunnel.configureFec_eq cfg (Tunnel.fromHandshake peer session congestion now) fec
  rw [same]
  exact ⟨rfl, nofun, nofun⟩

end Tunnel

/-! ## Every packet of the device -/

/-- Packets up to the MTU, and the parity of their groups, pass both limits: the payload
    is within `MAX_PAYLOAD`, every datagram that it is sealed into is within `PATH_MTU`, and
    no run of a tunnel whose device keeps to the MTU counts a drop for size. -/
structure FitsPath (cfg : Config σ) (mtu : Nat) : Prop where
  data : ∀ packet : Bytes, packet.length ≤ mtu → packet.length ≤ MAX_PAYLOAD ∧
    ∀ (t t' : Tunnel σ) hdr wire, t.sealPacket cfg hdr packet = (some wire, t') →
      wire.length + OUTER_OVERHEAD ≤ PATH_MTU
  parity : ∀ params group buffer, (∀ packet ∈ buffer, packet.length ≤ mtu) →
    ∀ p ∈ parityPackets cfg.fec params group buffer,
      ∀ (t t' : Tunnel σ) hdr wire, t.sealPacket cfg hdr p.payload = (some wire, t') →
        wire.length + OUTER_OVERHEAD ≤ PATH_MTU
  runs : ∀ fec peer session (congestion : σ) now turns t,
    (∀ turn ∈ turns, ∀ packet : Bytes, turn.2 = .tun packet → packet.length ≤ mtu) →
    Tunnel.run cfg ((Tunnel.fromHandshake peer session congestion now).configureFec cfg fec) turns =
      some t → t.counters.txDroppedMtu = 0

/-- With padding up to 1400 bytes and any other layers, whatever the codec, the transport
    and the configured MTU: the device's packets and their parity fit the path. -/
theorem fitsPath_effectiveTunMtu {cfg : Config σ} (cipher : cfg.aead.AddsTag)
    (pads : cfg.obfuscation.PadsOnce 1400) (configured : UInt32) :
    FitsPath cfg (effectiveTunMtu configured).toNat := by
  have compact : cfg.Compact := ⟨cipher, pads⟩
  have within := effectiveTunMtu_le configured
  refine ⟨fun packet short => ?_, fun params group buffer short p member t t' hdr wire made => ?_,
    ?_⟩
  · have inside := Nat.le_trans short within
    exact ⟨inside, fun t t' hdr wire made => Tunnel.sealPacket_fits compact inside made⟩
  · have longest : p.payload.length ≤ MAX_PAYLOAD := by
      rw [length_of_mem_parity member]
      exact Nat.le_trans (groupLen_le short) within
    exact Tunnel.sealPacket_fits compact longest made
  · intro fec peer session congestion now turns t short ran
    have inside : ∀ turn ∈ turns, ∀ packet, turn.2 = .tun packet → packet.length ≤
      MAX_PAYLOAD :=
      fun turn member packet event => Nat.le_trans (short turn member packet event) within
    exact ((Tunnel.spared_start fec peer session congestion now).run compact inside ran).drops

/-- The default padding between two whitenings, over the second codec and the marker. -/
def paddedConfig : Config (CongestionController ℚ) :=
  { Tunnel.sampleRenoConfig with
    codec := .v2Tlv
    transport := .tagged DEFAULT_TAG.1 DEFAULT_TAG.2
    obfuscation :=
      [.headerXor (some ⟨List.replicate HEADER_LEN 0, rfl⟩),
      .padding ⟨DEFAULT_BUCKETS, DEFAULT_MAX⟩, .timing, .headerXor none] }

/-- A configured MTU of 1400 is cut to the payload limit, and packets of that size fit. -/
theorem paddedConfig_fits : (effectiveTunMtu 1400).toNat = MAX_PAYLOAD ∧
    FitsPath paddedConfig (effectiveTunMtu 1400).toNat := by
  have cipher : paddedConfig.aead.AddsTag := by
    intro key nonce aad message sealed_ made
    cases made
    simp
  have pads : paddedConfig.obfuscation.PadsOnce 1400 := by
    refine ⟨by decide, fun p member => ?_⟩
    simp only [paddedConfig, List.mem_cons, reduceCtorEq, ObfuscationLayer.padding.injEq,
      List.not_mem_nil, or_false, false_or] at member
    subst member
    exact ⟨by decide, by decide⟩
  exact ⟨by decide, fitsPath_effectiveTunMtu cipher pads 1400⟩

end Rustnies
