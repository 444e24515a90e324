import Rustnies.Tunnel.Acknowledged

/-! # What a tunnel counts and what it keeps

The counters that `rustnies status` prints say exactly what the tunnel did, and what a
tunnel keeps beside its tables is bounded in every state it reaches. A `Close` is the only
reliable packet it sends, and it leaves the loop with it, so nothing is ever sent again.
-/

namespace Rustnies

variable {σ : Type}

namespace Tunnel

/-- The payloads that were counted. -/
def countedOf (notes : List Note) : List Bytes :=
  notes.filterMap fun
    | .heard _ _ | .checked _ => none
    | .counted payload => some payload

@[simp]
theorem countedOf_append (notes notes' : List Note) :
    countedOf (notes ++ notes') = countedOf notes ++ countedOf notes' :=
  List.filterMap_append

/-- The bytes of some payloads. -/
def totalBytes (payloads : List Bytes) : Nat := (payloads.map List.length).sum

theorem totalBytes_append (first second : List Bytes) :
    totalBytes (first ++ second) = totalBytes first + totalBytes second := by
  rw [totalBytes, List.map_append, List.sum_append]
  rfl

/-- The payloads of the data and parity packets that were sent. -/
def fecSent (t : Tunnel σ) : List Bytes := (t.sent.filter fun p => p.IsFec).map Sent.payload

def TunWrite.isRecovered (w : TunWrite) : Bool :=
  match w.origin with
  | .data _ => false
  | .recovered _ _ => true

/-- The packets that recovery handed to the TUN device. -/
def recoveredWrites (t : Tunnel σ) : Nat := t.tunWrites.countP TunWrite.isRecovered

/-- The counters say what was sent, what was counted, and at most what was recovered. -/
structure Counted (notes : List Note) (t : Tunnel σ) : Prop where
  txPackets : t.counters.txPackets = t.fecSent.length.toUInt64
  txBytes : t.counters.txBytes = (totalBytes t.fecSent).toUInt64
  rxPackets : t.counters.rxPackets = (countedOf notes).length.toUInt64
  rxBytes : t.counters.rxBytes = (totalBytes (countedOf notes)).toUInt64
  fecRecovered : ∃ recovered ≤ t.recoveredWrites, t.counters.fecRecovered = recovered.toUInt64

variable {cfg : Config σ} {env : Env} {phase : Phase} {packet : Option (PacketHeader × Bytes)}
  {t t' : Tunnel σ} {notes old : List Note}

theorem fecSent_control {p : Sent} (control : ¬ p.IsFec) (sent : t'.sent = t.sent ++ [p]) :
    t'.fecSent = t.fecSent := by
  simp [fecSent, sent, control]

theorem fecSent_fec {p : Sent} (fec : p.IsFec) (sent : t'.sent = t.sent ++ [p]) :
    t'.fecSent = t.fecSent ++ [p.payload] := by
  simp [fecSent, sent, fec]

theorem Move.counted (move : Move cfg env phase packet t notes t') (counted : t.Counted old) :
    t'.Counted (old ++ notes) := by
  obtain ⟨txPackets, txBytes, rxPackets, rxBytes, fecRecovered⟩ := counted
  have silent : countedOf (old ++ []) = countedOf old := congrArg countedOf (List.append_nil old)
  cases move with
  | control stamped kind payload wire =>
      rename_i hdr
      have same : ((t.afterSeal cfg hdr payload).recordSent hdr payload wire).fecSent = t.fecSent :=
        fecSent_control (p := ⟨hdr, payload, wire, t.peer⟩) kind.control rfl
      exact ⟨same ▸ txPackets, same ▸ txBytes, silent.symm ▸ rxPackets,
        silent.symm ▸ rxBytes, fecRecovered⟩
  | transmit sending stamped fec payload wire =>
      rename_i hdr kind
      have same : ((t.afterSeal cfg hdr payload).noteTransmitted env hdr payload wire
        (max payload.length 1) kind).fecSent = t.fecSent ++ [payload] :=
        fecSent_fec (p := ⟨hdr, payload, wire, t.peer⟩) fec rfl
      refine ⟨?_, ?_, silent.symm ▸ rxPackets, silent.symm ▸ rxBytes, fecRecovered⟩
      · rw [same, List.length_append]
        exact (congrArg (· + 1) txPackets).trans (UInt64.ofNat_add _ _).symm
      · rw [same, totalBytes_append]
        exact (congrArg (· + _) txBytes).trans (UInt64.ofNat_add _ _).symm
  | tallies same =>
      refine ⟨same.txPackets.trans txPackets, same.txBytes.trans txBytes,
        silent.symm ▸ same.rxPackets.trans rxPackets,
        silent.symm ▸ same.rxBytes.trans rxBytes, ?_⟩
      simp only [same.fecRecovered]
      exact fecRecovered
  | hears opened =>
      rename_i hdr payload
      have quiet : countedOf (old ++ [.heard hdr payload]) = countedOf old := by
        rw [countedOf_append]
        exact List.append_nil _
      exact ⟨txPackets, txBytes, quiet.symm ▸ rxPackets, quiet.symm ▸ rxBytes, fecRecovered⟩
  | replays seq =>
      have quiet : countedOf (old ++ [.checked seq]) = countedOf old := by
        rw [countedOf_append]
        exact List.append_nil _
      exact ⟨txPackets, txBytes, quiet.symm ▸ rxPackets, quiet.symm ▸ rxBytes, fecRecovered⟩
  | counts opened =>
      rename_i hdr payload
      have one : countedOf (old ++ [.counted payload]) = countedOf old ++ [payload] :=
        countedOf_append _ _
      refine ⟨txPackets, txBytes, ?_, ?_, fecRecovered⟩
      · rw [one, List.length_append]
        exact (congrArg (· + 1) rxPackets).trans (UInt64.ofNat_add _ _).symm
      · rw [one, totalBytes_append]
        exact (congrArg (· + _) rxBytes).trans (UInt64.ofNat_add _ _).symm
  | delivers opened =>
      obtain ⟨recovered, fewer, same⟩ := fecRecovered
      refine ⟨txPackets, txBytes, silent.symm ▸ rxPackets, silent.symm ▸ rxBytes, recovered,
        fewer.trans ?_, same⟩
      simp [recoveredWrites, writeTun]
  | recovers groups group lost =>
      refine ⟨txPackets, txBytes, silent.symm ▸ rxPackets, silent.symm ▸ rxBytes, ?_⟩
      have all : (lost.map fun e => (⟨.recovered group e.1, e.2⟩ : TunWrite)).countP
        TunWrite.isRecovered =
          lost.length := by
        rw [List.countP_map]
        exact List.countP_eq_length.mpr fun e _ => rfl
      have taken : lost.countP (fun e => env.tunSendOk e.2) ≤ lost.length := List.countP_le_length
      obtain ⟨recovered, fewer, same⟩ := fecRecovered
      refine ⟨recovered + lost.countP fun e => env.tunSendOk e.2, ?_, ?_⟩
      · simp only [recoveredWrites, withRx, List.countP_append, all] at fewer ⊢
        omega
      · exact (congrArg (· + _) same).trans (UInt64.ofNat_add _ _).symm
  | _ =>
      exact ⟨txPackets, txBytes, silent.symm ▸ rxPackets, silent.symm ▸ rxBytes,
        fecRecovered⟩

/-- In every run the counters say exactly, in 64 bits, how many data and parity packets were
    sent and with how many bytes, how many packets were accepted and with how many bytes,
    and a number of recovered packets that is not more than recovery handed over. -/
theorem counters_exact {turns : List (Env × Event)} (zero : t.counters = {}) (silent : t.sent = [])
    (ran : run cfg t turns = some t') :
    t'.counters.txPackets = t'.fecSent.length.toUInt64 ∧
    t'.counters.txBytes = (totalBytes t'.fecSent).toUInt64 ∧
    t'.counters.rxPackets = (countedOf (t.notesAlong cfg turns)).length.toUInt64 ∧
    t'.counters.rxBytes = (totalBytes (countedOf (t.notesAlong cfg turns))).toUInt64 ∧
    ∃ recovered ≤ t'.recoveredWrites, t'.counters.fecRecovered = recovered.toUInt64 := by
  have unsent : t.fecSent = [] := by rw [fecSent, silent, List.filter_nil, List.map_nil]
  have start : t.Counted [] := by
    constructor
    · rw [zero, unsent]
      rfl
    · rw [zero, unsent]
      rfl
    · rw [zero]
      rfl
    · rw [zero]
      rfl
    · exact ⟨0, Nat.zero_le _, by rw [zero]; rfl⟩
  obtain ⟨txPackets, txBytes, rxPackets, rxBytes, fecRecovered⟩ :=
    run_notes (fun t notes => t.Counted notes) (fun _ _ _ _ _ _ _ => Move.counted) ran start
  exact ⟨txPackets, txBytes, rxPackets, rxBytes, fecRecovered⟩

/-- A packet goes out, and a packet of the peer and two copies of its `Close` arrive. -/
def busyTurns : List (Env × Event) :=
  let peer := sampleConfig .responderToInitiator .initiatorToResponder
  let data := firstWire (step peer (sampleTunnel ⟨1, 2⟩) (sampleEnv 0 0, .tun [1, 2, 3]))
  let close := firstWire (step peer (sampleTunnel ⟨1, 2⟩) (sampleEnv 0 0, .evict))
  [(sampleEnv 0 0, .tun [4, 5]), (sampleEnv 1 0, .datagram data (sampleAddr 2)),
    (sampleEnv 2 0, .datagram close (sampleAddr 2)),
    (sampleEnv 3 0, .datagram close (sampleAddr 2))]

theorem busyTurns_counted : ∃ t' : Tunnel Unit,
    run (sampleConfig .initiatorToResponder .responderToInitiator)
    (sampleTunnel ⟨1, 2⟩) busyTurns = some t' ∧ t'.counters.txPackets = 3 ∧
    t'.counters.rxBytes = 3 ∧ t'.counters.txPackets = t'.fecSent.length.toUInt64 ∧
    t'.counters.rxBytes =
    (totalBytes (countedOf
      ((sampleTunnel ⟨1, 2⟩).notesAlong
      (sampleConfig .initiatorToResponder .responderToInitiator) busyTurns))).toUInt64 := by
  have evaluated :
    (run (sampleConfig .initiatorToResponder .responderToInitiator) (sampleTunnel ⟨1, 2⟩)
    busyTurns).any (fun t => decide (t.counters.txPackets = 3) && decide (t.counters.rxBytes = 3)) =
    true := by
    decide +kernel
  obtain ⟨t', ran, checked⟩ := (Option.any_eq_true _ _).mp evaluated
  obtain ⟨sent, received⟩ := (Bool.and_eq_true _ _).mp checked
  obtain ⟨txPackets, -, -, rxBytes, -⟩ := counters_exact rfl rfl ran
  exact ⟨t', ran, of_decide_eq_true sent, of_decide_eq_true received, txPackets, rxBytes⟩

/-! ## What is kept -/

/-- A sample of the losses that is still being taken. -/
structure LossWindow.Open (w : LossWindow) (size : Nat) : Prop where
  total : w.total < size
  lost : w.lost ≤ w.total

theorem LossWindow.Open.record {w : LossWindow} {size : Nat} (kept : LossWindow.Open w size)
    (lost : Bool) :
    LossWindow.Open (w.record lost size).2 size := by
  obtain ⟨total, fewer⟩ := kept
  unfold Rustnies.LossWindow.record
  simp only
  split
  · exact ⟨Nat.zero_lt_of_lt total, Nat.le_refl 0⟩
  · rename_i few
    refine ⟨Nat.not_le.mp few, ?_⟩
    split
    · exact Nat.succ_le_succ fewer
    · exact Nat.le_succ_of_le fewer

/-- What a tunnel keeps beside its tables. -/
structure Bounded (t : Tunnel σ) : Prop where
  acks : t.rxSinceAck < ACK_EVERY
  wire : LossWindow.Open t.wireLossWindow LOSS_SAMPLE_PACKETS
  source : LossWindow.Open t.sourceLossWindow LOSS_SAMPLE_SOURCES

theorem Move.bounded (move : Move cfg env phase packet t notes t') (bounded : t.Bounded) :
    t'.Bounded := by
  obtain ⟨acks, wire, source⟩ := bounded
  cases move with
  | wireWindow lost => exact ⟨acks, wire.record lost, source⟩
  | sourceWindow lost => exact ⟨acks, wire, source.record lost⟩
  | owes few => exact ⟨few, wire, source⟩
  | _ => exact ⟨acks, wire, source⟩

/-- The group that is being filled: as many packets as its index says, and never 255. -/
structure Filling (t : Tunnel σ) : Prop where
  length : t.groupBuffer.length = t.groupIndex.toNat
  room : t.groupIndex.toNat < 255

theorem GroupStep.filling {packets : List Sent} (step : GroupStep cfg t packets t')
    (filling : t.Filling) :
    t'.Filling := by
  obtain ⟨length, room⟩ := filling
  cases step with
  | idle control same =>
      exact ⟨by rw [same.groupBuffer, same.groupIndex, length],
        by rw [same.groupIndex]; exact room⟩
  | data packet below groupId groupIndex groupBuffer =>
      have one : (t.groupIndex + 1).toNat = t.groupIndex.toNat + 1 := by
        rw [UInt8.toNat_add, UInt8.toNat_one]
        omega
      have most : t.fecParams.k.toNat < 256 := t.fecParams.k.toNat_lt
      have less := UInt8.lt_iff_toNat_lt.mp below
      refine ⟨?_, ?_⟩
      · rw [groupBuffer, groupIndex, one, List.length_append, length]
        rfl
      · rw [groupIndex, one]
        omega
  | fill packet full groupId groupIndex groupBuffer parity =>
      exact ⟨by rw [groupBuffer, groupIndex]; rfl, by rw [groupIndex]; decide⟩
  | flush nonempty groupId groupIndex groupBuffer parity =>
      exact ⟨by rw [groupBuffer, groupIndex]; rfl, by rw [groupIndex]; decide⟩

/-! ## What awaits an acknowledgement -/

/-- The reliable packets that were sent. -/
def reliableSent (t : Tunnel σ) : List Sent := t.sent.filter fun p => p.hdr.packetType.isReliable

/-- The tunnel left its loop with this `Close`, its last packet and the only reliable one. -/
structure LeftWith (t : Tunnel σ) (p : Sent) : Prop where
  left : t.exit ≠ none
  kind : p.hdr.packetType = .close
  only : t.reliableSent = [p]
  last : t.sent.getLast? = some p

/-- Nothing was sent again, nothing reliable but a `Close` at the end was sent at all, and
    nothing else awaits an acknowledgement. -/
structure Unrepeated (t : Tunnel σ) : Prop where
  resent : t.resent = []
  reliable : t.reliableSent = [] ∨ ∃ p, t.LeftWith p
  few : t.outstanding.length ≤ 1
  awaits : ∀ o ∈ t.outstanding, ∃ p, t.LeftWith p ∧
    o.ptype = .close ∧ o.seq = p.hdr.seq ∧ o.payload = p.wire

/-- Nothing reliable was sent so far. -/
structure Idle (t : Tunnel σ) : Prop where
  resent : t.resent = []
  outstanding : t.outstanding = []
  reliable : t.reliableSent = []

theorem Unrepeated.idle (unrepeated : t.Unrepeated) (running : t.exit = none) : t.Idle := by
  have stays : ∀ p, ¬ t.LeftWith p := fun p left => left.left running
  refine ⟨unrepeated.resent, List.eq_nil_iff_forall_not_mem.mpr fun o member => ?_, ?_⟩
  · obtain ⟨p, left, -⟩ := unrepeated.awaits o member
    exact stays p left
  · rcases unrepeated.reliable with none_ | ⟨p, left⟩
    · exact none_
    · exact absurd left (stays p)

theorem Idle.unrepeated (idle : t.Idle) : t.Unrepeated := by
  obtain ⟨resent, outstanding, reliable⟩ := idle
  refine ⟨resent, .inl reliable, by rw [outstanding]; exact Nat.zero_le 1, fun o member => ?_⟩
  rw [outstanding] at member
  cases member

theorem Idle.sends (idle : t.Idle) {p : Sent} (unreliable : p.hdr.packetType.isReliable = false)
    (resent : t'.resent = t.resent) (outstanding : t'.outstanding = t.outstanding)
    (sent : t'.sent = t.sent ++ [p]) : t'.Idle := by
  refine ⟨resent.trans idle.resent, outstanding.trans idle.outstanding, ?_⟩
  have before : t.sent.filter (fun p => p.hdr.packetType.isReliable) = [] := idle.reliable
  rw [reliableSent, sent, List.filter_append, before]
  simp [unreliable]

theorem Move.idle (working : phase ≠ .closes) (move : Move cfg env phase packet t notes t')
    (idle : t.Idle) :
    t'.Idle := by
  cases move with
  | control stamped kind payload wire =>
      rename_i hdr
      have unreliable : hdr.packetType.isReliable = false :=
        Bool.eq_false_iff.mpr fun reliable => working (kind.reliable reliable)
      exact idle.sends (p := ⟨hdr, payload, wire, t.peer⟩) unreliable rfl rfl rfl
  | transmit sending stamped fec payload wire =>
      rename_i hdr kind
      have unreliable : hdr.packetType.isReliable = false := by
        rcases fec with data | parity
        · rw [data]; rfl
        · rw [parity]; rfl
      exact idle.sends (p := ⟨hdr, payload, wire, t.peer⟩) unreliable rfl rfl rfl
  | queues closing => exact absurd closing working
  | resends due touch kept =>
      obtain ⟨resent, outstanding, reliable⟩ := idle
      exact ⟨by simp [resent, outstanding], by simp [outstanding], reliable⟩
  | _ => exact ⟨idle.resent, idle.outstanding, idle.reliable⟩

theorem sendControl_sends (cfg : Config σ) (env : Env) (ptype : PacketType) (payload : Bytes)
    (room : t.outstanding.length < MAX_OUTSTANDING_CONTROL) :
    (t.sendControl cfg env ptype payload).resent = t.resent ∧
    (((t.sendControl cfg env ptype payload).sent = t.sent ∧
        (t.sendControl cfg env ptype payload).outstanding = t.outstanding) ∨
      ∃ p, p.hdr.packetType = ptype ∧ (t.sendControl cfg env ptype payload).sent = t.sent ++
        [p] ∧ (t.sendControl cfg env ptype payload).outstanding =
          t.outstanding ++
          [{ seq := p.hdr.seq, ptype := ptype, payload := p.wire, lastSent := env.now }]) := by
  simp only [sendControl]
  rcases made : sealPacket cfg (t.nextHeader ptype).2 (t.nextHeader ptype).1 payload
    with ⟨_ | wire, mid⟩
  all_goals obtain rfl := afterSeal_of_sealPacket made
  · exact ⟨rfl, .inl ⟨rfl, rfl⟩⟩
  · have kept :
      ((t.afterSeal cfg (t.nextHeader ptype).1 payload).recordSent (t.nextHeader ptype).1 payload
      wire).outstanding.length < MAX_OUTSTANDING_CONTROL := room
    simp only [if_pos kept]
    split
    · exact ⟨rfl,
        .inr ⟨⟨(t.nextHeader ptype).1, payload, wire, t.peer⟩, rfl, rfl, rfl⟩⟩
    · exact ⟨rfl, .inl ⟨rfl, rfl⟩⟩

theorem closeAndExit_unrepeated (env : Env) (exit : TunnelExit) (idle : t.Idle) :
    (t.closeAndExit cfg env exit).Unrepeated := by
  have room : t.outstanding.length < MAX_OUTSTANDING_CONTROL := by
    rw [idle.outstanding]
    decide
  obtain ⟨resent, ⟨sent, outstanding⟩ | ⟨p, kind, sent, outstanding⟩⟩ :=
    sendControl_sends cfg env .close [] room
  · refine Idle.unrepeated ⟨resent.trans idle.resent, outstanding.trans idle.outstanding, ?_⟩
    exact (congrArg (List.filter _) sent).trans idle.reliable
  · have reliable : p.hdr.packetType.isReliable = true := by
      rw [kind]
      rfl
    have left : (t.closeAndExit cfg env exit).LeftWith p := by
      refine ⟨Option.some_ne_none exit, kind, ?_, ?_⟩
      · have before : t.sent.filter (fun p => p.hdr.packetType.isReliable) = [] := idle.reliable
        change (t.sendControl cfg env .close []).sent.filter _ = [p]
        rw [sent, List.filter_append, before]
        simp [reliable]
      · exact (congrArg List.getLast? sent).trans List.getLast?_concat
    rw [idle.outstanding, List.nil_append] at outstanding
    have one : (t.closeAndExit cfg env exit).outstanding = _ := outstanding
    refine ⟨resent.trans idle.resent, .inr ⟨p, left⟩,
      by rw [one]; exact Nat.le_refl 1, fun o member => ?_⟩
    rw [one] at member
    rw [List.mem_singleton.mp member]
    exact ⟨p, left, rfl, rfl, rfl⟩

theorem step_unrepeated {turn : Env × Event} (stepped : step cfg t turn = some t')
    (unrepeated : t.Unrepeated) :
    t'.Unrepeated := by
  cases exited : t.exit with
  | some exit =>
      rw [step_exited turn (by rw [exited]; rfl)] at stepped
      cases stepped
      exact unrepeated
  | none =>
      have idle := unrepeated.idle exited
      by_cases working : phaseOf turn.2 = .closes
      · obtain ⟨env, e⟩ := turn
        rw [step_running _ exited] at stepped
        have ite : ∀ {c : Prop} [Decidable c] (exit : TunnelExit),
            (if c then t.closeAndExit cfg env exit else t).Unrepeated := by
          intro c _ exit
          split
          · exact closeAndExit_unrepeated env exit idle
          · exact unrepeated
        cases e with
        | stop requested =>
            cases stepped
            exact ite .stopped
        | timeoutCheck =>
            cases stepped
            exact ite .sessionTimeout
        | evict =>
            cases stepped
            exact closeAndExit_unrepeated env .peerClosed idle
        | _ => cases working
      · exact ((step_moves stepped).preserves Idle (fun _ _ _ => Move.idle working)
          idle).unrepeated

/-! ## From the handshake on -/

variable {peer : SocketAddr} {session : Session} {congestion : σ} {now : Instant} {fc : FecConfig}
  {turns : List (Env × Event)}

/-- In every run nothing is ever sent again: the only reliable packet of a tunnel is the one
    `Close` with which it leaves its loop, nothing but it awaits an acknowledgement, and
    nothing does while the loop runs. -/
theorem nothing_resent
    (ran : run cfg ((fromHandshake peer session congestion now).configureFec cfg fc)
      turns = some t') :
    t'.resent = [] ∧ (t'.reliableSent = [] ∨ ∃ p, t'.LeftWith p) ∧
    t'.outstanding.length ≤ 1 ∧
    (∀ o ∈ t'.outstanding, ∃ p, t'.LeftWith p ∧
      o.ptype = .close ∧ o.seq = p.hdr.seq ∧ o.payload = p.wire) ∧
    (t'.exit = none → t'.outstanding = []) := by
  obtain ⟨adaptive, params, same⟩ :=
    (fromHandshake peer session congestion now).configureFec_eq cfg fc
  have start : ((fromHandshake peer session congestion now).configureFec cfg fc).Idle := by
    rw [same]
    exact ⟨rfl, rfl, rfl⟩
  have unrepeated := Runs.invariant (fun _ _ _ => step_unrepeated) ran start.unrepeated
  exact ⟨unrepeated.resent, unrepeated.reliable, unrepeated.few, unrepeated.awaits,
    fun running => (unrepeated.idle running).outstanding⟩

/-- Four sources to a group and one parity packet. -/
def sampleFec : FecConfig := ⟨4, 1, 1, 1⟩

def sampleStart (cfg : Config Unit) : Tunnel Unit :=
  (fromHandshake (sampleAddr 1) (.new 7 .initiator) () 0).configureFec cfg sampleFec

/-- Two packets go out, the loop is stopped, and its timers still fire. -/
def stoppedTurns : List (Env × Event) :=
  [(sampleEnv 0 0, .tun [1]), (sampleEnv 0 0, .tun [2]), (sampleEnv 1 0, .rtoTick),
    (sampleEnv 2 0, .stop true), (sampleEnv 9000000000 0, .rtoTick)]

theorem stoppedTurns_unrepeated : ∃ t' : Tunnel Unit,
    run (sampleConfig .initiatorToResponder .responderToInitiator)
      (sampleStart (sampleConfig .initiatorToResponder .responderToInitiator))
      stoppedTurns = some t' ∧
    t'.exit = some .stopped ∧ t'.resent = [] ∧ ∃ o ∈ t'.outstanding, ∃ p,
    t'.LeftWith p ∧ o.ptype = .close ∧ o.seq = p.hdr.seq ∧ o.payload = p.wire := by
  have evaluated : (run (sampleConfig .initiatorToResponder .responderToInitiator)
      (sampleStart (sampleConfig .initiatorToResponder .responderToInitiator)) stoppedTurns).any
      (fun t => decide (t.exit = some .stopped) && !t.outstanding.isEmpty) = true := by
    decide +kernel
  obtain ⟨t', ran, checked⟩ := (Option.any_eq_true _ _).mp evaluated
  obtain ⟨stopped, awaited⟩ := (Bool.and_eq_true _ _).mp checked
  obtain ⟨resent, -, -, awaits, -⟩ := nothing_resent ran
  obtain ⟨o, member⟩ := List.exists_mem_of_ne_nil t'.outstanding (by simpa using awaited)
  exact ⟨t', ran, of_decide_eq_true stopped, resent, o, member, awaits o member⟩

/-- In every run fewer than four packets wait for an acknowledgement to be sent, both loss
    samples hold fewer packets than a sample has, with no more lost than seen, and the group
    that is being filled holds the packets its index says, fewer than 255. -/
theorem kept_bounded
    (ran : run cfg ((fromHandshake peer session congestion now).configureFec cfg fc)
      turns = some t') :
    t'.rxSinceAck < ACK_EVERY ∧
    (t'.wireLossWindow.total < LOSS_SAMPLE_PACKETS ∧
      t'.wireLossWindow.lost ≤ t'.wireLossWindow.total) ∧
    (t'.sourceLossWindow.total < LOSS_SAMPLE_SOURCES ∧
      t'.sourceLossWindow.lost ≤ t'.sourceLossWindow.total) ∧
    t'.groupBuffer.length = t'.groupIndex.toNat ∧ t'.groupIndex.toNat < 255 := by
  obtain ⟨adaptive, params, same⟩ :=
    (fromHandshake peer session congestion now).configureFec_eq cfg fc
  have quiet : 0 < ACK_EVERY := by decide
  have start : ((fromHandshake peer session congestion now).configureFec cfg fc).Bounded := by
    rw [same]
    exact ⟨quiet, ⟨Nat.succ_pos 63, Nat.le_refl 0⟩, ⟨Nat.succ_pos 63, Nat.le_refl 0⟩⟩
  have empty : ((fromHandshake peer session congestion now).configureFec cfg fc).Filling := by
    rw [same]
    exact ⟨rfl, Nat.succ_pos 254⟩
  have bounds : ∀ t turn t', step cfg t turn = some t' → t.Bounded → t'.Bounded :=
    fun _ _ _ stepped bounded =>
      (step_moves stepped).preserves Bounded (fun _ _ _ => Move.bounded) bounded
  have fills : ∀ t turn t', step cfg t turn = some t' → t.Filling → t'.Filling :=
    fun _ _ _ stepped filling => by
    obtain ⟨packets, -, moves⟩ := step_emits stepped
    exact moves.filling filling
  obtain ⟨acks, wire, source⟩ := Runs.invariant bounds ran start
  obtain ⟨length, room⟩ := Runs.invariant fills ran empty
  exact ⟨acks, ⟨wire.total, wire.lost⟩, ⟨source.total, source.lost⟩, length, room⟩

theorem stoppedTurns_bounded : ∃ t' : Tunnel Unit,
    run (sampleConfig .initiatorToResponder .responderToInitiator)
      (sampleStart (sampleConfig .initiatorToResponder .responderToInitiator))
      stoppedTurns = some t' ∧
    t'.groupBuffer.length = 2 ∧ t'.groupIndex.toNat = 2 := by
  have evaluated : (run (sampleConfig .initiatorToResponder .responderToInitiator)
      (sampleStart (sampleConfig .initiatorToResponder .responderToInitiator)) stoppedTurns).any
      (fun t => decide (t.groupBuffer.length = 2)) = true := by
    decide +kernel
  obtain ⟨t', ran, checked⟩ := (Option.any_eq_true _ _).mp evaluated
  obtain ⟨-, -, -, length, -⟩ := kept_bounded ran
  exact ⟨t', ran, of_decide_eq_true checked, length.symm.trans (of_decide_eq_true checked)⟩

end Tunnel

end Rustnies
