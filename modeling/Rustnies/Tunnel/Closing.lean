import Rustnies.Tunnel.Arrival

/-! # How the loop ends

Every branch of the loop that ends it on this side's account seals a `Close` first.
The others end it in silence: the TUN source or the UDP source has gone away, or the
peer has sent a `Close` of its own.
-/

namespace Rustnies.Tunnel

variable {σ : Type} {cfg : Config σ} {env : Env} {t t' : Tunnel σ}

/-- A `Close` was sealed for the peer. -/
def IssuedClose (cfg : Config σ) (t : Tunnel σ) : Prop :=
  ∃ hdr : PacketHeader, hdr.packetType = .close ∧
    ⟨makeNonce t.session.id hdr.seq cfg.sendDir, cfg.codec.encodeHeader hdr, []⟩ ∈ t.seals

/-- The datagram is a `Close` of the peer that was not received before. -/
def PeerCloses (cfg : Config σ) (t : Tunnel σ) (bytes : Bytes) : Prop :=
  ∃ hdr payload, cfg.openDatagram t.session.id bytes = .ok (hdr, payload) ∧
    hdr.packetType = .close ∧ (t.session.receiveReliable hdr.seq).1 = true

theorem closeAndExit_issues (cfg : Config σ) (env : Env) (t : Tunnel σ) (exit : TunnelExit) :
    (t.closeAndExit cfg env exit).IssuedClose cfg := by
  refine ⟨(t.nextHeader .close).1, rfl, ?_⟩
  simp only [closeAndExit, sendControl]
  rcases made : sealPacket cfg (t.nextHeader .close).2 (t.nextHeader .close).1 []
    with ⟨_ | wire, mid⟩
  all_goals have sealed := congrArg (fun r => (r.2.seals, r.2.session.id)) made
  · simp only [sealPacket, Prod.mk.injEq] at sealed
    simp [← sealed.1, ← sealed.2]
  · simp only [sealPacket, Prod.mk.injEq] at sealed
    simp only
    split
    · split
      · simp [recordSent, ← sealed.1, ← sealed.2]
      · simp [recordSent, ← sealed.1, ← sealed.2]
    · simp [← sealed.1, ← sealed.2]

/-! ## Datagrams -/

theorem sendPacket_replay (t : Tunnel σ) (ptype : PacketType) (payload : Bytes) :
    (t.sendPacket cfg env ptype payload).session.replay = t.session.replay := by
  simp only [sendPacket]
  rcases made : sealPacket cfg (t.nextHeader ptype).2 (t.nextHeader ptype).1 payload
    with ⟨_ | wire, mid⟩
  all_goals have same : mid.session.replay = t.session.replay :=
    (congrArg (fun r => r.2.session.replay) made).symm
  · exact same
  · simp only
    split <;> exact same

theorem reconcilePeerAcks_session (cfg : Config σ) (env : Env) (t : Tunnel σ) :
    (t.reconcilePeerAcks cfg env).2.session = t.session := by
  have windows : ∀ (resolved : List (UInt32 × Bool × SentPacket)) (t : Tunnel σ),
      (resolved.foldl (fun t r => t.noteResolved cfg env r.2.1 r.2.2.kind) t).session =
        t.session := by
    intro resolved
    induction resolved with
    | nil => exact fun _ => rfl
    | cons r resolved ih =>
        intro t
        rw [List.foldl_cons, ih]
        simp only [noteResolved, applyFecParams]
        split <;> split <;> (try split) <;> rfl
  simp only [reconcilePeerAcks]
  rw [windows]
  split <;> split <;> (try split) <;> rfl

theorem replay_before_check (cfg : Config σ) (env : Env) (t : Tunnel σ) (source : SocketAddr)
    (hdr : PacketHeader) :
    (((t.observePeerAcks cfg env hdr).followPeer cfg source).noteReceived cfg env
      hdr).session.replay =
      t.session.replay := by
  have observed : (t.observePeerAcks cfg env hdr).session.replay = t.session.replay := by
    simp only [observePeerAcks]
    split
    · have same := congrArg Session.replay (reconcilePeerAcks_session cfg env
        { t with session := t.session.observeAcks hdr.ackSeq hdr.ackBitmap })
      split
      · exact same
      · exact same
    · rfl
  have followed : ∀ t : Tunnel σ, (t.followPeer cfg source).session.replay =
    t.session.replay := by
    intro t
    simp only [followPeer]
    split <;> rfl
  have noted : ∀ t : Tunnel σ, (t.noteReceived cfg env hdr).session.replay =
    t.session.replay := by
    intro t
    simp only [noteReceived]
    split
    · split
      · exact sendPacket_replay _ .ack []
      · rfl
    · rfl
  rw [noted, followed, observed]

theorem receiveReliable_congr {s s' : Session} (same : s'.replay = s.replay) (seq : UInt32) :
    (s'.receiveReliable seq).1 = (s.receiveReliable seq).1 := by
  simp only [Session.receiveReliable, same]
  split <;> rfl

/-- A `Close` that was received before is dropped. -/
theorem duplicate_closing {source : SocketAddr} {hdr : PacketHeader} {payload : Bytes}
    (kind : hdr.packetType = .close) (known : (t.session.receiveReliable hdr.seq).1 = false)
    (accepted : t.acceptPacket cfg env source hdr payload = some t') : t'.closing = t.closing := by
  have before :
    (((t.observePeerAcks cfg env hdr).followPeer cfg source).noteReceived cfg env hdr).closing =
      t.closing := by
    rw [(noteReceived_controls cfg env _ hdr).rx.closing, (followPeer_rx cfg _ source).2.2,
      (observePeerAcks_controls cfg env t hdr).rx.closing]
  have reliable : hdr.packetType.isReliable = true := by rw [kind]; rfl
  have duplicate :=
    (receiveReliable_congr (replay_before_check cfg env t source hdr) hdr.seq).trans known
  simp only [acceptPacket, reliable, if_true] at accepted
  split at accepted
  · cases accepted
    exact before
  · rename_i session first
    rw [first] at duplicate
    cases duplicate

theorem datagram_exits {bytes : Bytes} {source : SocketAddr} (running : t.exit = none)
    (calm : t.closing = false) (done : t.handleEvent cfg env (.datagram bytes source) = some t') :
    (t'.exit = none ∧ t'.closing = false) ∨ (t'.exit ≠ none ∧ t.PeerCloses cfg bytes) := by
  cases opened : cfg.openDatagram t.session.id bytes with
  | error e =>
      simp only [handleEvent, handleUdpDatagram, opened, Option.map_some, calm, Bool.false_eq_true,
        if_false, Option.some.injEq] at done
      exact .inl (done ▸ ⟨running, calm⟩)
  | ok packet =>
      obtain ⟨hdr, payload⟩ := packet
      by_cases kind : hdr.packetType = .close
      · simp only [handleEvent, handleUdpDatagram, opened] at done
        obtain ⟨mid, accepted, rfl⟩ := Option.map_eq_some_iff.mp done
        obtain ⟨-, -, -, exit, -⟩ :=
          (acceptPacket_spec cfg env t source hdr payload).2 mid accepted
        cases closes : mid.closing with
        | false =>
            rw [if_neg Bool.false_ne_true]
            exact .inl ⟨exit.trans running, closes⟩
        | true =>
            rw [if_pos rfl]
            refine .inr ⟨Option.some_ne_none _, hdr, payload, opened, kind, ?_⟩
            cases fresh : (t.session.receiveReliable hdr.seq).1 with
            | true => rfl
            | false => cases closes.symm.trans ((duplicate_closing kind fresh accepted).trans calm)
      · exact .inl (datagram_stays opened kind running calm done)

theorem handleEvent_exits {e : Event} (running : t.exit = none) (calm : t.closing = false)
    (done : t.handleEvent cfg env e = some t') :
    (t'.exit = none ∧ t'.closing = false) ∨
    (t'.exit ≠ none ∧
      (t'.IssuedClose cfg ∨ e = .tunError ∨ e = .udpClosed ∨ ∃ bytes source,
      e = .datagram bytes source ∧ t.PeerCloses cfg bytes)) := by
  have controls : Controls cfg t t' → t'.exit = none ∧ t'.closing = false := fun controls =>
    ⟨controls.rx.exit.trans running, controls.rx.closing.trans calm⟩
  have sends : (∃ packets, Transmits cfg t packets t') → t'.exit = none ∧
    t'.closing = false := by
    rintro ⟨packets, transmits⟩
    exact ⟨transmits.rx.exit.trans running, transmits.rx.closing.trans calm⟩
  cases e with
  | datagram bytes source =>
      rcases datagram_exits running calm done with stays | ⟨ends, closes⟩
      · exact .inl stays
      · exact .inr ⟨ends, .inr (.inr (.inr ⟨bytes, source, rfl, closes⟩))⟩
  | stop requested =>
      cases done
      cases requested with
      | true => exact .inr ⟨Option.some_ne_none _, .inl (closeAndExit_issues cfg env t _)⟩
      | false => exact .inl ⟨running, calm⟩
  | tun packet =>
      cases done
      exact .inl (sends (onTun_transmits cfg env t packet))
  | tunError =>
      cases done
      exact .inr ⟨Option.some_ne_none _, .inr (.inl rfl)⟩
  | pacerRetry =>
      refine .inl ?_
      simp only [handleEvent, Option.some.injEq] at done
      split at done
      · exact sends (done ▸ retryPending_transmits cfg env t)
      · exact done ▸ ⟨running, calm⟩
  | udpClosed =>
      cases done
      exact .inr ⟨Option.some_ne_none _, .inr (.inr (.inl rfl))⟩
  | ping =>
      cases done
      exact .inl (controls (sendPing_controls t))
  | fecTick =>
      cases done
      obtain ⟨packets, transmits⟩ := flushFecGroupIfStale_transmits cfg env t
      exact .inl ⟨transmits.rx.exit.trans running, transmits.rx.closing.trans calm⟩
  | rtoTick =>
      cases done
      exact .inl (controls (checkRetransmits_controls t))
  | ackTick =>
      cases done
      exact .inl (controls (flushCoalescedAck_controls t))
  | keepalive =>
      cases done
      exact .inl (controls (sendKeepalive_controls t))
  | timeoutCheck =>
      cases done
      split
      · exact .inr ⟨Option.some_ne_none _, .inl (closeAndExit_issues cfg env t _)⟩
      · exact .inl ⟨running, calm⟩
  | evict =>
      cases done
      exact .inr ⟨Option.some_ne_none _, .inl (closeAndExit_issues cfg env t _)⟩

/-! ## Whole runs -/

/-- A loop that runs has seen no `Close` of the peer. -/
def Calm (t : Tunnel σ) : Prop := t.exit = none → t.closing = false

theorem step_calm {turn : Env × Event} (stepped : t.step cfg turn = some t') (calm : t.Calm) :
    t'.Calm := by
  intro stays
  cases running : t.exit with
  | some exit =>
      simp only [step, running, Option.isSome_some, if_true, Option.some.injEq] at stepped
      rw [← stepped] at stays ⊢
      exact calm stays
  | none =>
      simp only [step, running, Option.isSome_none, Bool.false_eq_true, if_false] at stepped
      rcases handleEvent_exits running (calm running) stepped with ⟨-, open_⟩ | ⟨ends, -⟩
      · exact open_
      · exact absurd stays ends

theorem fromHandshake_calm (peer : SocketAddr) (session : Session) (congestion : σ) (now : Instant)
    (fc : FecConfig) :
    ((fromHandshake peer session congestion now).configureFec cfg fc).Calm := by
  obtain ⟨adaptive, params, same⟩ :=
    (fromHandshake peer session congestion now).configureFec_eq cfg fc
  rw [same]
  exact fun _ => rfl

end Rustnies.Tunnel
