import Rustnies.Tunnel.Fates
import Rustnies.Tunnel.Moves

/-! # What the congestion window promises

A controller with a window lets no turn that sends leave more bytes unresolved than the
window, and lets no other turn add to them. The window of `tcp-reno` never closes: it
keeps a floor above the largest packet, and the packets that are not acknowledged in time
leave the flight with the next reconciliation.
-/

namespace Rustnies

/-- A controller whose budget is what its window leaves beside the bytes in flight; only
    acknowledgements and losses move the window, and it stays above the floor. -/
structure CongestionControl.Windowed {σ : Type} (cc : CongestionControl σ)
    (inFlight window : σ → Nat) (floor : Nat) :
    Prop where
  accounts : cc.Accounts inFlight
  floors : cc.Preserves fun s => floor ≤ window s
  budget : ∀ s, cc.sendBudget s = window s - inFlight s
  asked : ∀ now s len, window (cc.maySend now s len).2 = window s
  reserved : ∀ now s len, window (cc.onSendBytes now s len) = window s
  refunded : ∀ s bytes, window (cc.refundSendBytes s bytes) = window s
  paritySent : ∀ now s len, window (cc.trySendParity now s len).2 = window s
  parityRoom : ∀ now s len, (cc.trySendParity now s len).1 = true →
    inFlight (cc.trySendParity now s len).2 ≤ window s
  parityRefused : ∀ now s len, (cc.trySendParity now s len).1 = false →
    inFlight (cc.trySendParity now s len).2 = inFlight s

namespace CongestionController

variable {F : Type} {f64 : Floating F} (c : CongestionController F)

theorem maySend_cwnd (now : Instant) (len : Nat) : (c.maySend f64 now len).2.cwnd = c.cwnd := by
  rcases c.maySend_cases f64 now len with same | ⟨-, admitted⟩
  · rw [same]
  · rw [admitted]
    rfl

theorem refundSendBytes_cwnd (bytes : Nat) : (c.refundSendBytes f64 bytes).cwnd = c.cwnd := by
  simp only [refundSendBytes]
  cases (c.release bytes).nextSendAt with
  | none => rfl
  | some next => rfl

theorem trySendParity_cases (f64 : Floating F) (now : Instant) (len : Nat) :
    c.trySendParity f64 now len = (false, c) ∨ (max len 1 ≤ c.sendBudget ∧
      c.trySendParity f64 now len =
      (true, (c.onSendBytes len).advancePacer f64 now (max len 1))) := by
  simp only [trySendParity]
  split
  · exact .inl rfl
  · rename_i room
    exact .inr ⟨Nat.le_of_not_lt room, rfl⟩

theorem trySendParity_cwnd (now : Instant) (len : Nat) :
    (c.trySendParity f64 now len).2.cwnd = c.cwnd := by
  rcases c.trySendParity_cases f64 now len with same | ⟨-, admitted⟩
  · rw [same]
  · rw [admitted]
    rfl

/-- An acknowledgement only widens the window. -/
theorem ackCommon_cwnd (bytes : Nat) : c.cwnd ≤ (c.ackCommon f64 bytes).cwnd := by
  have fits := c.fits
  simp only [ackCommon, recomputePacingRate, saturatingAdd]
  omega

theorem onLoss_cwnd (lost total : Nat) (above : MIN_CWND_BYTES ≤ c.cwnd) :
    MIN_CWND_BYTES ≤ (c.onLoss f64 lost total).cwnd := by
  simp only [onLoss]
  split
  · exact above
  · exact Nat.le_max_right _ _

end CongestionController

theorem tcpReno_windowed {F : Type} (f64 : Floating F) :
    (tcpReno f64).Windowed CongestionController.inFlight CongestionController.cwnd
    MIN_CWND_BYTES where
  accounts := tcpReno_accounts f64
  floors := {
    asks := fun now c len above => above.trans (c.maySend_cwnd now len).ge
    reserves := fun now c len above => above
    refunds := fun c bytes above => above.trans (c.refundSendBytes_cwnd bytes).ge
    parity := fun now c len above => above.trans (c.trySendParity_cwnd now len).ge
    releases := fun c bytes above => above
    acks := fun now c bytes above => above.trans (c.ackCommon_cwnd bytes)
    acksWithRtt :=
    fun now c bytes rtt above => above.trans ((c.onRttSample f64 rtt).ackCommon_cwnd bytes)
    losses := fun now c lost total above => c.onLoss_cwnd lost total above
    samples := fun c rtt above => above }
  budget c := rfl
  asked now c len := c.maySend_cwnd now len
  reserved now c len := rfl
  refunded c bytes := c.refundSendBytes_cwnd bytes
  paritySent now c len := c.trySendParity_cwnd now len
  parityRoom now c len sent := by
    rcases c.trySendParity_cases f64 now len with same | ⟨room, admitted⟩
    · cases sent.symm.trans (congrArg Prod.fst same)
    · have reserved := c.onSendBytes_inFlight (Nat.le_max_right len 1) room
      have same : (c.onSendBytes (max len 1)).inFlight = (c.onSendBytes len).inFlight := by
        simp only [CongestionController.onSendBytes, Nat.max_assoc, Nat.max_self]
      have after : ((tcpReno f64).trySendParity now c len).2.inFlight =
        (c.onSendBytes len).inFlight :=
        congrArg (fun r => r.2.inFlight) admitted
      rw [after, ← same, reserved]
      simp only [CongestionController.sendBudget] at room
      omega
  parityRefused now c len refused := by
    rcases c.trySendParity_cases f64 now len with same | ⟨-, admitted⟩
    · exact congrArg (fun r => r.2.inFlight) same
    · cases refused.symm.trans (congrArg Prod.fst admitted)

namespace Tunnel

variable {σ : Type} {cfg : Config σ} {env : Env} {phase : Phase}
  {packet : Option (PacketHeader × Bytes)} {t t' start : Tunnel σ} {notes : List Note}
  {inFlight window : σ → Nat} {floor : Nat}

/-! ## What a turn does to the flight -/

/-- A turn that sends reserves within the window only, and settles nothing. -/
structure Reserving (inFlight window : σ → Nat) (start t : Tunnel σ) : Prop where
  steady : window t.congestion = window start.congestion
  room : inFlight t.congestion ≤ max (inFlight start.congestion) (window start.congestion)
  settled : t.resolutions = start.resolutions

theorem Move.reserving (windowed : cfg.congestion.Windowed inFlight window floor)
    (move : Move cfg env .sends packet t notes t') (reserving : Reserving inFlight window start t) :
    Reserving inFlight window start t' := by
  obtain ⟨same, room, settled⟩ := reserving
  cases move with
  | waits sending len refused =>
      exact ⟨(windowed.asked _ _ _).trans same,
        (windowed.accounts.waits _ _ _).le.trans room, settled⟩
  | reserves sending positive within granted =>
      rename_i len
      refine ⟨(windowed.reserved _ _ _).trans ((windowed.asked _ _ _).trans same), ?_, settled⟩
      rw [windowed.budget] at within
      have added := windowed.accounts.reserves env.now t.congestion len positive granted
      simp only [added]
      omega
  | parity sending len =>
      refine ⟨(windowed.paritySent _ _ _).trans same, ?_, settled⟩
      cases answer : (cfg.congestion.trySendParity env.now t.congestion len).1 with
      | true =>
          have inside := windowed.parityRoom _ _ _ answer
          simp only
          omega
      | false => exact (windowed.parityRefused _ _ _ answer).le.trans room
  | refunds sending len =>
      refine ⟨(windowed.refunded _ _).trans same, ?_, settled⟩
      have less := windowed.accounts.refunds t.congestion len
      simp only [refund, less]
      omega
  | retires settling => cases settling
  | loses settling => cases settling
  | samples settling => cases settling
  | resolves settling => cases settling
  | _ => exact ⟨same, room, settled⟩

/-- Any other turn adds nothing to the flight and sends no packet of a group. -/
structure Draining (inFlight : σ → Nat) (start t : Tunnel σ) : Prop where
  less : inFlight t.congestion ≤ inFlight start.congestion
  recorded : t.recorded = start.recorded

theorem Move.draining (accounts : cfg.congestion.Accounts inFlight) (quiet : phase ≠ .sends)
    (move : Move cfg env phase packet t notes t') (draining : Draining inFlight start t) :
    Draining inFlight start t' := by
  obtain ⟨less, recorded⟩ := draining
  cases move with
  | transmit sending => exact absurd sending quiet
  | waits sending => exact absurd sending quiet
  | reserves sending => exact absurd sending quiet
  | parity sending => exact absurd sending quiet
  | refunds sending => exact absurd sending quiet
  | control stamped kind payload wire =>
      rename_i hdr
      refine ⟨less, ?_⟩
      rw [← recorded]
      simp [Tunnel.recorded, afterSeal, recordSent, Sent.IsFec, kind.control]
  | retires settling acked lost rtt =>
      refine ⟨?_, recorded⟩
      have retired : inFlight (retire cfg env t.congestion acked lost rtt) = inFlight t.congestion -
        (acked + lost) :=
        retire_inFlight accounts _ _ _ _
      simp only [retired]
      omega
  | loses settling lost total => exact ⟨(accounts.losses _ _ _ _).le.trans less, recorded⟩
  | samples settling rtt => exact ⟨(accounts.samples _ _).le.trans less, recorded⟩
  | _ => exact ⟨less, recorded⟩

/-! ## Bytes that are not resolved -/

/-- The bytes of some records. -/
def charged (records : List (UInt32 × Nat)) : Nat := (records.map Prod.snd).sum

theorem Balanced.charged {seq : UInt32} (balanced : t.Balanced inFlight seq 0) :
    Tunnel.charged t.recorded = t.recordedBytes + Tunnel.charged t.settled := by
  have sums := (balanced.accounted.map Prod.snd).sum_eq
  rwa [List.map_append, List.sum_append] at sums

theorem charged_lt {turn : Env × Event} (stepped : step cfg t turn = some t')
    (sent : t'.recorded ≠ t.recorded) :
    charged t.recorded < charged t'.recorded := by
  obtain ⟨packets, emits, -⟩ := step_emits stepped
  have grown : t'.recorded = t.recorded ++ (packets.filter fun s => s.IsFec).map Sent.charge := by
    rw [recorded, emits.sent, List.filter_append, List.map_append]
    rfl
  have total : charged t'.recorded = charged t.recorded +
      charged ((packets.filter fun s => s.IsFec).map Sent.charge) := by
    rw [grown, charged, List.map_append, List.sum_append]
    rfl
  rw [total]
  refine Nat.lt_add_of_pos_right ?_
  rw [grown] at sent
  cases added : packets.filter fun s => s.IsFec with
  | nil =>
      rw [added] at sent
      exact absurd (List.append_nil _) sent
  | cons p rest =>
      have one : 0 < p.charge.2 := Nat.le_max_right _ _
      rw [List.map_cons, charged, List.map_cons, List.sum_cons]
      omega

/-- A turn leaves no more bytes unresolved than there were or than the window, and than the
    window when it sent any. -/
theorem step_within {seq : UInt32} {turn : Env × Event}
    (windowed : cfg.congestion.Windowed inFlight window floor)
    (balanced : t.Balanced inFlight seq 0) (stepped : step cfg t turn = some t')
    (few : t'.seals.length < 2 ^ 32) :
    t'.recordedBytes ≤ max t.recordedBytes (window t'.congestion) ∧
      (t'.recorded ≠ t.recorded → t'.recordedBytes ≤ window t'.congestion) := by
  have balanced' := (step_balances windowed.accounts stepped).keeps few balanced
  have before : inFlight t.congestion = t.recordedBytes := balanced.inFlight
  have after : inFlight t'.congestion = t'.recordedBytes := balanced'.inFlight
  by_cases sending : phaseOf turn.2 = .sends
  · have moves := step_moves stepped
    rw [sending] at moves
    have start : Reserving inFlight window t t := ⟨rfl, Nat.le_max_left _ _, rfl⟩
    obtain ⟨steady, room, settled⟩ := moves.preserves (Reserving inFlight window t)
      (fun _ _ _ => Move.reserving windowed) start
    rw [before, after, ← steady] at room
    refine ⟨room, fun sent => ?_⟩
    have grown := charged_lt stepped sent
    have same : charged t'.settled = charged t.settled := by
      simp only [Tunnel.settled, settled]
    have here := balanced.charged
    have there := balanced'.charged
    omega
  · obtain ⟨less, recorded⟩ := (step_moves stepped).preserves (Draining inFlight t)
      (fun _ _ _ => Move.draining windowed.accounts sending) ⟨Nat.le_refl _, rfl⟩
    rw [before, after] at less
    exact ⟨less.trans (Nat.le_max_left _ _), fun sent => absurd recorded sent⟩

theorem run_floor {turns : List (Env × Event)}
    (windowed : cfg.congestion.Windowed inFlight window floor) (ran : run cfg t turns = some t')
    (above : floor ≤ window t.congestion) : floor ≤ window t'.congestion := by
  have keeps : ∀ t turn t', step cfg t turn = some t' → floor ≤
    window t.congestion → floor ≤ window t'.congestion :=
    fun _ _ _ => step_good (windowed.floors.on fun _ => True) (fun _ _ => trivial)
      fun _ _ _ _ _ _ _ _ _ => trivial
  exact Runs.invariant keeps ran above

/-! ## The window of `tcp-reno` -/

section Reno

variable {F : Type} {f64 : Floating F} {cfg : Config (CongestionController F)}
  {t t' : Tunnel (CongestionController F)} {fec : FecConfig} {peer : SocketAddr} {session : Session}
  {mtu : UInt32} {now : Instant} {turns : List (Env × Event)}

theorem renoStart_floor (cfg : Config (CongestionController F)) :
    MIN_CWND_BYTES ≤ (renoStart f64 cfg fec peer session mtu now).congestion.cwnd := by
  obtain ⟨adaptive, params, same⟩ := Tunnel.configureFec_eq cfg
    (Tunnel.fromHandshake peer session ((CongestionController.new f64).setMtu mtu) now) fec
  rw [renoStart, same]
  simp only [fromHandshake, CongestionController.setMtu]
  split
  · exact (by decide : MIN_CWND_BYTES ≤ INITIAL_CWND_BYTES)
  · exact (by decide : MIN_CWND_BYTES ≤ INITIAL_CWND_BYTES)

/-- In every run with `tcp-reno` that draws fewer than 2^32 numbers, a turn that sends data or
    parity leaves no more bytes unresolved than the window, any other turn adds none, and
    the window keeps at least two packets, whatever is acknowledged, lost or sampled. -/
theorem flight_within_window (reno : cfg.congestion = tcpReno f64) {turn : Env × Event}
    (ran : run cfg (renoStart f64 cfg fec peer session mtu now) turns = some t)
    (stepped : step cfg t turn = some t') (few : t'.seals.length < 2 ^ 32) :
    (t'.recorded ≠ t.recorded → t'.recordedBytes ≤ t'.congestion.cwnd) ∧
    t'.recordedBytes ≤ max t.recordedBytes t'.congestion.cwnd ∧
    MIN_CWND_BYTES ≤ t'.congestion.cwnd := by
  have windowed : cfg.congestion.Windowed CongestionController.inFlight CongestionController.cwnd
    MIN_CWND_BYTES :=
    reno ▸ tcpReno_windowed f64
  have balances : Balances CongestionController.inFlight session.nextSeq 0 0 t t' :=
    step_balances windowed.accounts stepped
  have grows := balances.grows
  have balanced := (run_balances windowed.accounts ran).keeps (Nat.lt_of_le_of_lt grows few)
    (renoStart_balanced f64 cfg fec peer session mtu now)
  obtain ⟨most, sends⟩ := step_within windowed balanced stepped few
  have longer : run cfg (renoStart f64 cfg fec peer session mtu now) (turns ++ [turn]) =
      some t' := by
    refine (Runs.run_append (step cfg) _ turns [turn]).trans ?_
    rw [show Runs.run (step cfg) _ turns = some t from ran]
    simpa using stepped
  exact ⟨sends, most, run_floor windowed longer (renoStart_floor cfg)⟩

/-- A tunnel with one source and one parity packet to a group, from its start. -/
def sampleRenoStart : Tunnel (CongestionController ℚ) :=
  renoStart Floating.exact sampleRenoConfig ⟨1, 1, 1, 1⟩ (sampleAddr 1)
    (.new 7 .initiator) 1400 0

/-- A packet goes out with its parity, both time out, and a second packet follows. -/
theorem lossyTurns_within : ∃ t t', run sampleRenoConfig sampleRenoStart (lossyTurns.take 2) =
      some t ∧ step sampleRenoConfig t (sampleEnv 2000000000 0, .tun [4]) = some t' ∧
    t'.recorded ≠ t.recorded ∧ t'.recordedBytes ≤ t'.congestion.cwnd := by
  have evaluated : (run sampleRenoConfig sampleRenoStart (lossyTurns.take 2)).any (fun t =>
      (step sampleRenoConfig t (sampleEnv 2000000000 0, .tun [4])).any fun t' =>
        decide (t'.seals.length < 2 ^ 32) && decide (t'.recorded ≠ t.recorded)) = true := by
    decide +kernel
  obtain ⟨t, ran, checked⟩ := (Option.any_eq_true _ _).mp evaluated
  obtain ⟨t', stepped, checked⟩ := (Option.any_eq_true _ _).mp checked
  obtain ⟨few, sent⟩ := (Bool.and_eq_true _ _).mp checked
  have sent := of_decide_eq_true sent
  exact ⟨t, t', ran, stepped, sent,
    (flight_within_window rfl ran stepped (of_decide_eq_true few)).1 sent⟩

/-- The window of `tcp-reno` cannot stay shut: an RTO tick that finds every unresolved packet
    older than the timeout resolves them all, and then the budget has room for a packet of
    any size that the tunnel takes from the TUN device. -/
theorem window_reopens (reno : cfg.congestion = tcpReno f64) {env : Env}
    (ran : run cfg (renoStart f64 cfg fec peer session mtu now) turns = some t)
    (running : t.exit = none)
    (old : ∀ e ∈ t.sentPackets.entries, max t.congestion.rto MIN_SENT_PACKET_LIFETIME ≤
      env.now - e.2.sentAt) (stepped : step cfg t (env, .rtoTick) = some t')
    (few : t'.seals.length < 2 ^ 32) :
    t'.recordedBytes = 0 ∧ ∀ data : Bytes, data.length ≤ MAX_PAYLOAD →
      max data.length 1 ≤ cfg.congestion.sendBudget t'.congestion := by
  have windowed : cfg.congestion.Windowed CongestionController.inFlight CongestionController.cwnd
    MIN_CWND_BYTES :=
    reno ▸ tcpReno_windowed f64
  have ran' : run cfg (renoStart f64 cfg fec peer session mtu now) (turns ++ [(env, .rtoTick)]) =
    some t' := by
    refine (Runs.run_append (step cfg) _ turns _).trans ?_
    rw [show Runs.run (step cfg) _ turns = some t from ran]
    simpa using stepped
  have balanced := (run_balances windowed.accounts ran').keeps few
    (renoStart_balanced f64 cfg fec peer session mtu now)
  have floor := run_floor windowed ran' (renoStart_floor cfg)
  rw [step_running _ running] at stepped
  cases stepped
  have empty : (t.reconcilePeerAcks cfg env).2.sentPackets.entries = [] := by
    rw [reconcilePeerAcks_sentPackets]
    refine List.eq_nil_iff_forall_not_mem.mpr fun e member => ?_
    have young := stillOpen_young member
    have held : e ∈ t.sentPackets.entries :=
      List.mem_of_mem_filter ((stillOpen_perm cfg env t).mem_iff.mp member)
    have expired := old e held
    rw [reno] at young
    exact absurd young (Nat.not_lt.mpr expired)
  have none : (t.checkRetransmits cfg env).recordedBytes = 0 := by
    have same : (t.checkRetransmits cfg env).sentPackets =
      (t.reconcilePeerAcks cfg env).2.sentPackets := rfl
    rw [recordedBytes, unresolved, same, empty]
    rfl
  refine ⟨none, fun data short => ?_⟩
  have flight : (t.checkRetransmits cfg env).congestion.inFlight = 0 := balanced.inFlight.trans none
  have most : MAX_PAYLOAD ≤ MIN_CWND_BYTES := by decide
  rw [windowed.budget, flight]
  exact (Nat.max_le.mpr ⟨short.trans most, by decide⟩).trans floor

/-- A packet and its parity are lost, and a second later the window is open. -/
theorem lossyTurns_reopen : ∃ t t', run sampleRenoConfig sampleRenoStart (lossyTurns.take 1) =
      some t ∧ t.recordedBytes = 6 ∧
    step sampleRenoConfig t (sampleEnv 1000000000 0, .rtoTick) = some t' ∧
    t'.recordedBytes = 0 := by
  have evaluated : (run sampleRenoConfig sampleRenoStart (lossyTurns.take 1)).any (fun t =>
      decide (t.exit = none) && decide (t.recordedBytes = 6) &&
        (t.sentPackets.entries.all fun e =>
          decide (max t.congestion.rto MIN_SENT_PACKET_LIFETIME ≤ (sampleEnv 1000000000 0).now -
            e.2.sentAt)) &&
        (step sampleRenoConfig t (sampleEnv 1000000000 0, .rtoTick)).any fun t' =>
          decide (t'.seals.length < 2 ^ 32)) = true := by
    decide +kernel
  obtain ⟨t, ran, checked⟩ := (Option.any_eq_true _ _).mp evaluated
  simp only [Bool.and_eq_true, decide_eq_true_eq, List.all_eq_true] at checked
  obtain ⟨⟨⟨running, flight⟩, old⟩, later⟩ := checked
  obtain ⟨t', stepped, few⟩ := (Option.any_eq_true _ _).mp later
  exact ⟨t, t', ran, flight, stepped,
    (window_reopens rfl ran running old stepped (of_decide_eq_true few)).1⟩

end Reno

end Tunnel

end Rustnies
