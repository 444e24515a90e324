import Rustnies.Tunnel.InFlight

/-! # The pacer and the parked packet

The run loop keeps one packet that the pacer held back. Only the two events that offer a
packet to the gate touch it, and every other change of the controller is one of the
controller's own calls: what holds of the controller under every call holds in every
state of the tunnel.
-/

namespace Rustnies

namespace Tunnel

variable {σ : Type}

/-- The packets from the device that the carrier took, in the order of their sending. -/
def dataSent (t : Tunnel σ) : List Bytes :=
  (t.sent.filter fun s => s.hdr.packetType = .data).map Sent.payload

/-- What holds of the controller still holds, the parked packet is the same, and no packet
    from the device was sent. -/
structure Keeps (good : σ → Prop) (t t' : Tunnel σ) : Prop where
  congestion : good t.congestion → good t'.congestion
  pendingOut : t'.pendingOut = t.pendingOut
  data : t'.dataSent = t.dataSent

variable {cfg : Config σ} {env : Env} {good : σ → Prop} {t t' t'' : Tunnel σ}

namespace Keeps

theorem refl (t : Tunnel σ) : Keeps good t t := ⟨fun holds => holds, rfl, rfl⟩

theorem trans (first : Keeps good t t') (second : Keeps good t' t'') : Keeps good t t'' where
  congestion holds := second.congestion (first.congestion holds)
  pendingOut := second.pendingOut.trans first.pendingOut
  data := second.data.trans first.data

theorem of_same (congestion : t'.congestion = t.congestion)
    (pendingOut : t'.pendingOut = t.pendingOut) (sent : t'.sent = t.sent) : Keeps good t t' :=
  ⟨fun holds => congestion ▸ holds, pendingOut, by rw [dataSent, sent]; rfl⟩

end Keeps

/-! ## Sending -/

theorem sealPacket_keeps {ptype : PacketType} {hdr : PacketHeader} {payload : Bytes}
    {wire : Option Bytes} (made : (t.nextHeader ptype).2.sealPacket cfg hdr payload = (wire, t')) :
    Keeps good t t' := by
  cases made
  exact .of_same rfl rfl rfl

theorem dataSent_recordSent (t : Tunnel σ) (hdr : PacketHeader) (payload wire : Bytes) :
    (t.recordSent hdr payload wire).dataSent =
      t.dataSent ++ if hdr.packetType = .data then [payload] else [] := by
  simp only [dataSent, recordSent, List.filter_append, List.map_append]
  by_cases kind : hdr.packetType = .data
  · simp [kind]
  · simp [kind]

theorem recordSent_keeps (t : Tunnel σ) {hdr : PacketHeader} (other : hdr.packetType ≠ .data)
    (payload wire : Bytes) : Keeps good t (t.recordSent hdr payload wire) where
  congestion holds := holds
  pendingOut := rfl
  data := by rw [dataSent_recordSent, if_neg other, List.append_nil]

theorem noteTransmitted_keeps (t : Tunnel σ) {hdr : PacketHeader}
    (other : hdr.packetType ≠ .data) (payload wire : Bytes) (len : Nat) (kind : SentPacketKind) :
    Keeps good t (t.noteTransmitted env hdr payload wire len kind) :=
  (recordSent_keeps t other payload wire).trans (.of_same rfl rfl rfl)

theorem sendPacket_keeps (t : Tunnel σ) (ptype : PacketType) (other : ptype ≠ .data)
    (payload : Bytes) :
    Keeps good t (t.sendPacket cfg env ptype payload) := by
  simp only [sendPacket]
  split
  · rename_i mid made
    exact sealPacket_keeps made
  · rename_i wire mid made
    split
    · exact (sealPacket_keeps made).trans (recordSent_keeps mid other payload wire)
    · exact sealPacket_keeps made

theorem sendControl_keeps (t : Tunnel σ) (ptype : PacketType) (other : ptype ≠ .data)
    (payload : Bytes) :
    Keeps good t (t.sendControl cfg env ptype payload) := by
  simp only [sendControl]
  split
  · rename_i mid made
    exact sealPacket_keeps made
  · rename_i wire mid made
    have recorded : Keeps good t (mid.recordSent (t.nextHeader ptype).1 payload wire) :=
      (sealPacket_keeps made).trans (recordSent_keeps mid other payload wire)
    split
    · split
      · exact recorded.trans (.of_same rfl rfl rfl)
      · exact recorded
    · exact sealPacket_keeps made

section Calls

variable {allowed : Duration → Prop} (preserves : cfg.congestion.PreservesOn allowed good)

include preserves

theorem refund_keeps (t : Tunnel σ) (bytes : Nat) : Keeps good t (t.refund cfg bytes) :=
  ⟨fun holds => preserves.refunds _ bytes holds, rfl, rfl⟩

theorem sendParity_keeps (k : Nat) (group : UInt16) (t : Tunnel σ) (parity : Bytes) (i : Nat) :
    Keeps good t (t.sendParity cfg env k group parity i) := by
  have asked : Keeps good t { t with
      congestion := (cfg.congestion.trySendParity env.now t.congestion (max parity.length 1)).2 } :=
    ⟨fun holds => preserves.parity _ _ _ holds, rfl, rfl⟩
  simp only [sendParity]
  split
  · exact asked.trans (.of_same rfl rfl rfl)
  · refine asked.trans ?_
    split
    · rename_i mid made
      exact (sealPacket_keeps made).trans (refund_keeps preserves mid _)
    · rename_i wire mid made
      split
      · refine (sealPacket_keeps made).trans (.trans ?_ (refund_keeps preserves _ _))
        exact .of_same rfl rfl rfl
      · split
        · exact (sealPacket_keeps made).trans
            (noteTransmitted_keeps mid (by decide : PacketType.fec ≠ .data) ..)
        · exact (sealPacket_keeps made).trans (refund_keeps preserves mid _)

theorem flushFecGroup_keeps (t : Tunnel σ) : Keeps good t (t.flushFecGroup cfg env) := by
  have parities : ∀ (k : Nat) (group : UInt16) (ps : List (Bytes × Nat)) (t : Tunnel σ),
      Keeps good t (ps.foldl (fun t p => t.sendParity cfg env k group p.1 p.2) t) := by
    intro k group ps
    induction ps with
    | nil => exact .refl
    | cons p ps ih => exact fun t => (sendParity_keeps preserves k group t p.1 p.2).trans (ih _)
  have opened : Keeps good t { t with groupBuffer := [], groupIndex := 0, groupId :=
    t.groupId + 1 } :=
    .of_same rfl rfl rfl
  simp only [flushFecGroup]
  split
  · exact .refl t
  · split
    · exact opened
    · split
      · exact opened
      · exact opened.trans (parities _ _ _ _)

theorem joinGroup_keeps (t : Tunnel σ) (k : UInt8) (packet : Bytes) :
    Keeps good t (t.joinGroup cfg env k packet) := by
  have joined : Keeps good t
      { t with groupBuffer := t.groupBuffer ++ [packet], groupIndex := t.groupIndex + 1 } :=
      .of_same rfl rfl rfl
  simp only [joinGroup]
  split
  · exact joined.trans (flushFecGroup_keeps preserves _)
  · exact joined

/-! ## Acknowledgements and losses

A round trip that an acknowledgement tells is at most `MAX_RTT_SAMPLE`. -/

theorem noteResolved_keeps (t : Tunnel σ) (acked : Bool) (kind : SentPacketKind) :
    Keeps good t (t.noteResolved cfg env acked kind) := by
  have lost : ∀ lost total,
    good t.congestion → good (cfg.congestion.onLoss env.now t.congestion lost total) :=
    fun _ _ holds => preserves.losses _ _ _ _ holds
  simp only [noteResolved, applyFecParams]
  rcases t.wireLossWindow.record (!acked) LOSS_SAMPLE_PACKETS with ⟨_ | ⟨n, total⟩, w⟩
  · split
    · split
      · exact .of_same rfl rfl rfl
      · exact .of_same rfl rfl rfl
    · exact .of_same rfl rfl rfl
  · split
    · split
      · exact ⟨lost n total, rfl, rfl⟩
      · exact ⟨lost n total, rfl, rfl⟩
    · exact ⟨lost n total, rfl, rfl⟩

theorem retire_good (congestion : σ) (acked lost : Nat) (rtt : Option Duration)
    (sampled : ∀ sample, rtt = some sample → allowed sample) (holds : good congestion) :
    good (retire cfg env congestion acked lost rtt) := by
  -- first without a loss
  have told : good (retire cfg env congestion acked 0 rtt) := by
    simp only [retire, Nat.lt_irrefl, if_false]
    split
    · cases rtt with
      | some rtt => exact preserves.acksWithRtt _ _ _ _ (sampled rtt rfl) holds
      | none => exact preserves.acks _ _ _ holds
    · exact holds
  simp only [retire, Nat.lt_irrefl, if_false] at told ⊢
  split
  · exact preserves.releases _ _ told
  · exact told

variable (acked : ∀ rtt, rtt ≤ MAX_RTT_SAMPLE → allowed rtt)

include acked

theorem reconcilePeerAcks_keeps (t : Tunnel σ) : Keeps good t (t.reconcilePeerAcks cfg env).2 := by
  have windows : ∀ (resolved : List (UInt32 × Bool × SentPacket)) (t : Tunnel σ),
      Keeps good t (resolved.foldl (fun t r => t.noteResolved cfg env r.2.1 r.2.2.kind) t) := by
    intro resolved
    induction resolved with
    | nil => exact .refl
    | cons r resolved ih =>
        exact fun t => (noteResolved_keeps preserves t r.2.1 r.2.2.kind).trans (ih _)
  obtain ⟨bytes, lost, rtt, -, short, same⟩ := reconcilePeerAcks_eq cfg env t
  rw [same]
  refine Keeps.trans ?_ (windows _ _)
  have sampled : ∀ sample, rtt = some sample → allowed sample :=
    fun sample told => acked sample (short sample told)
  exact ⟨fun holds => retire_good preserves t.congestion bytes lost rtt sampled holds, rfl, rfl⟩

theorem checkRetransmits_keeps (t : Tunnel σ) : Keeps good t (t.checkRetransmits cfg env) :=
  (reconcilePeerAcks_keeps preserves acked t).trans (.of_same rfl rfl rfl)

theorem observePeerAcks_keeps (t : Tunnel σ) (hdr : PacketHeader) :
    Keeps good t (t.observePeerAcks cfg env hdr) := by
  have observed :
      Keeps good t { t with session := t.session.observeAcks hdr.ackSeq hdr.ackBitmap } :=
    .of_same rfl rfl rfl
  simp only [observePeerAcks]
  split
  · have reconciled : Keeps good t
        (reconcilePeerAcks cfg env
          { t with session := t.session.observeAcks hdr.ackSeq hdr.ackBitmap }).2 :=
      observed.trans (reconcilePeerAcks_keeps preserves acked _)
    refine reconciled.trans ?_
    split
    · exact .of_same rfl rfl rfl
    · exact .of_same rfl rfl rfl
  · exact .refl t

/-! ## Receiving -/

/-- The round trip that a pong tells, if it tells one, is allowed. -/
def PongTells (env : Env) (allowed : Duration → Prop) (payload : Bytes) : Prop :=
  12 ≤ payload.length → leValue (slice payload 4 12) ≤ env.wallMicros.toNat →
    allowed ((env.wallMicros.toNat - leValue (slice payload 4 12)) * 1000)

omit preserves acked in
theorem followPeer_keeps (t : Tunnel σ) (source : SocketAddr) :
    Keeps good t (t.followPeer cfg source) := by
  simp only [followPeer]
  split
  · exact .of_same rfl rfl rfl
  · exact .refl t

omit preserves acked in
theorem noteReceived_keeps (t : Tunnel σ) (hdr : PacketHeader) :
    Keeps good t (t.noteReceived cfg env hdr) := by
  simp only [noteReceived]
  split
  · split
    · refine Keeps.trans ?_ (sendPacket_keeps _ .ack (by decide) [])
      exact .of_same rfl rfl rfl
    · exact .of_same rfl rfl rfl
  · exact .of_same rfl rfl rfl

omit acked in
theorem handlePong_keeps (t : Tunnel σ) {payload : Bytes} (told : PongTells env allowed payload) :
    Keeps good t (t.handlePong cfg env payload) := by
  simp only [handlePong]
  split
  · exact .refl t
  · rename_i long
    split
    · rename_i past
      exact ⟨fun holds => preserves.samples _ _ (told (Nat.le_of_not_lt long) past) holds, rfl,
        rfl⟩
    · exact .refl t

omit preserves acked in
theorem RxOnly.keeps (only : RxOnly t t') : Keeps good t t' := by
  obtain ⟨r, counters, rfl⟩ := only
  exact .of_same rfl rfl rfl

omit acked in
theorem dispatch_keeps {hdr : PacketHeader} {payload : Bytes}
    (told : hdr.packetType = .pong → PongTells env allowed payload)
    (done : t.dispatch cfg env hdr payload = some t') : Keeps good t t' := by
  cases kind : hdr.packetType with
  | data =>
      simp only [dispatch, kind] at done
      exact ((handleData_acts cfg env t kind payload).only t' done).keeps
  | fec =>
      simp only [dispatch, kind] at done
      exact ((handleParity_acts cfg env t kind payload).only t' done).keeps
  | ping =>
      simp only [dispatch, kind, Option.some.injEq] at done
      rw [← done]
      exact sendPacket_keeps t .pong (by decide) payload
  | pong =>
      simp only [dispatch, kind, Option.some.injEq] at done
      rw [← done]
      exact handlePong_keeps preserves t (told kind)
  | close =>
      simp only [dispatch, kind, Option.some.injEq] at done
      rw [← done]
      exact .of_same rfl rfl rfl
  | _ =>
      simp only [dispatch, kind, Option.some.injEq] at done
      rw [← done]
      exact .refl t

theorem acceptPacket_keeps {source : SocketAddr} {hdr : PacketHeader} {payload : Bytes}
    (told : hdr.packetType = .pong → PongTells env allowed payload)
    (done : t.acceptPacket cfg env source hdr payload = some t') : Keeps good t t' := by
  have before : Keeps good t
    (((t.observePeerAcks cfg env hdr).followPeer cfg source).noteReceived cfg env hdr) :=
    ((observePeerAcks_keeps preserves acked t hdr).trans (followPeer_keeps _ source)).trans
      (noteReceived_keeps _ hdr)
  simp only [acceptPacket] at done
  generalize (((t.observePeerAcks cfg env hdr).followPeer cfg source).noteReceived cfg env
    hdr) = mid at done before
  have counted : ∀ session : Session,
    Keeps good mid ({ mid with session := session }.countReceived payload) :=
    fun _ => .of_same rfl rfl rfl
  split at done
  · split at done
    · cases done
      exact before.trans (.of_same rfl rfl rfl)
    · exact (before.trans (counted _)).trans (dispatch_keeps preserves told done)
  · exact (before.trans (counted mid.session)).trans (dispatch_keeps preserves told done)

/-! ## Turns -/

omit preserves acked in
theorem closeAndExit_keeps (t : Tunnel σ) (exit : TunnelExit) :
    Keeps good t (t.closeAndExit cfg env exit) :=
  (sendControl_keeps t .close (by decide) []).trans (.of_same rfl rfl rfl)

/-- The packet that a turn offers to the gate: one read from the device, or the parked one. -/
def offered (t : Tunnel σ) (e : Event) : Option Bytes :=
  if t.exit.isSome then none
  else
    match e with
    | .tun packet => some packet
    | .pacerRetry => t.pendingOut
    | _ => none

/-- The pong that a turn brings tells an allowed round trip. -/
def PongAllowed (cfg : Config σ) (allowed : Duration → Prop) (t : Tunnel σ)
    (turn : Env × Event) : Prop :=
  ∀ bytes source hdr payload, turn.2 = .datagram bytes source →
    cfg.openDatagram t.session.id bytes = .ok (hdr, payload) → hdr.packetType = .pong →
      PongTells turn.1 allowed payload

theorem step_keeps {turn : Env × Event} (told : t.PongAllowed cfg allowed turn)
    (quiet : t.offered turn.2 = none) (stepped : step cfg t turn = some t') : Keeps good t t' := by
  cases exited : t.exit with
  | some exit =>
      rw [step_exited turn (by rw [exited]; rfl)] at stepped
      cases stepped
      exact .refl t
  | none =>
      obtain ⟨env, e⟩ := turn
      rw [step_running _ exited] at stepped
      simp only [offered, exited, Option.isSome_none, Bool.false_eq_true, if_false] at quiet
      cases e with
      | datagram bytes source =>
          obtain ⟨mid, handled, rfl⟩ := Option.map_eq_some_iff.mp stepped
          have left : Keeps good mid (if mid.closing then { mid with exit := some .peerClosed }
            else mid) := by
            split
            · exact .of_same rfl rfl rfl
            · exact .refl mid
          refine Keeps.trans ?_ left
          simp only [handleUdpDatagram] at handled
          cases opened : cfg.openDatagram t.session.id bytes with
          | error e =>
              rw [opened] at handled
              cases handled
              exact .refl t
          | ok packet =>
              rw [opened] at handled
              exact acceptPacket_keeps preserves acked
                (told bytes source packet.1 packet.2 rfl opened) handled
      | stop requested =>
          cases stepped
          split
          · exact closeAndExit_keeps t _
          · exact .refl t
      | tun packet => cases quiet
      | pacerRetry =>
          cases stepped
          simp only [quiet, Option.isSome_none, Bool.false_eq_true, if_false]
          exact .refl t
      | ping =>
          cases stepped
          refine Keeps.trans ?_ (sendPacket_keeps _ .ping (by decide) _)
          exact .of_same rfl rfl rfl
      | fecTick =>
          cases stepped
          have flushed : Keeps good t (t.flushFecGroupIfStale cfg env) := by
            simp only [flushFecGroupIfStale]
            split
            · exact .refl t
            · exact flushFecGroup_keeps preserves t
          exact flushed.trans (.of_same rfl rfl rfl)
      | rtoTick =>
          cases stepped
          exact checkRetransmits_keeps preserves acked t
      | ackTick =>
          cases stepped
          simp only [flushCoalescedAck]
          split
          · refine Keeps.trans ?_ (sendPacket_keeps _ .ack (by decide) [])
            exact .of_same rfl rfl rfl
          · exact .refl t
      | keepalive =>
          cases stepped
          exact sendPacket_keeps t .keepalive (by decide) _
      | timeoutCheck =>
          cases stepped
          split
          · exact closeAndExit_keeps t _
          · exact .refl t
      | evict =>
          cases stepped
          exact closeAndExit_keeps t _
      | tunError =>
          cases stepped
          exact .of_same rfl rfl rfl
      | udpClosed =>
          cases stepped
          exact .of_same rfl rfl rfl

end Calls

end Tunnel

end Rustnies
