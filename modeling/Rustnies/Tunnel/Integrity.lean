import Rustnies.Tunnel.Acknowledged
import Rustnies.Tunnel.Fates
import Rustnies.Tunnel.Suppression

/-! # What comes out of the other TUN device

The data packets that a tunnel sends are packets that it read from its TUN device, in the
order it read them, each at most once. Over a network that loses and reorders, what the
receiver hands to its own device is such a packet, or such a packet padded with zeros
when recovery restored it, as long as no two groups mix under one id.
-/

namespace Rustnies

variable {σ τ : Type}

namespace Tunnel

variable {cfg : Config σ} {t t' : Tunnel σ} {turns : List (Env × Event)}

/-! ## From the device to the wire -/

def tunRead : Event → Option Bytes
  | .tun packet => some packet
  | _ => none

/-- The packets that were read from the TUN device. -/
def tunReads (turns : List (Env × Event)) : List Bytes :=
  turns.filterMap fun turn => tunRead turn.2

theorem preserves_trivial (cc : CongestionControl σ) :
    cc.PreservesOn (fun _ => True) fun _ => True where
  asks _ _ _ _ := trivial
  reserves _ _ _ _ := trivial
  refunds _ _ _ := trivial
  parity _ _ _ _ := trivial
  releases _ _ _ := trivial
  acks _ _ _ _ := trivial
  acksWithRtt _ _ _ _ _ _ := trivial
  losses _ _ _ _ _ := trivial
  samples _ _ _ _ := trivial

theorem offered_once {turn : Env × Event} {packet : Bytes}
    (offers : t.offered turn.2 = some packet) (stepped : step cfg t turn = some t') :
    (t'.dataSent ++ t'.pendingOut.toList).Sublist (t.dataSent ++ [packet]) := by
  have preserves := preserves_trivial cfg.congestion
  have outcome := step_outcome preserves offers stepped
  obtain ⟨deadline, handled, mid, reached, treated, -, -, -, parked⟩ :=
    step_offered preserves offers
  obtain rfl : mid = t' := Option.some.inj (reached.symm.trans stepped)
  have flag := treated.flag
  have fate : (t.park none deadline).fate cfg turn.1 packet = t.fate cfg turn.1 packet := rfl
  by_cases sent : t.fate cfg turn.1 packet = .sent
  · rw [sent] at outcome
    rw [flag, decide_eq_true sent, if_pos rfl] at parked
    rw [parked, show mid.dataSent = t.dataSent ++ [packet] from outcome]
    exact (List.append_nil _).symm ▸ List.Sublist.refl _
  · rw [flag, decide_eq_false sent, if_neg Bool.false_ne_true] at parked
    rw [outcome.unsent sent, parked]
    refine List.Sublist.append_left ?_ _
    cases cfg.congestion.nextSendDeadline turn.1.now handled.2.congestion with
    | none => exact List.nil_sublist _
    | some deadline => exact List.Sublist.refl _

theorem step_reads {turn : Env × Event} {reads : List Bytes} (stepped : step cfg t turn = some t')
    (ordered : (t.dataSent ++ t.pendingOut.toList).Sublist reads) :
    (t'.dataSent ++ t'.pendingOut.toList).Sublist (reads ++ (tunRead turn.2).toList) := by
  cases offers : t.offered turn.2 with
  | none =>
      have keeps := step_keeps (preserves_trivial cfg.congestion) (fun _ _ => trivial)
        (fun _ _ _ _ _ _ _ _ _ => trivial) offers stepped
      rw [keeps.data, keeps.pendingOut]
      exact ordered.trans (List.sublist_append_left _ _)
  | some packet =>
      refine (offered_once offers stepped).trans ?_
      obtain ⟨env, e⟩ := turn
      simp only [offered] at offers
      split at offers
      · cases offers
      · cases e with
        | tun data =>
            cases offers
            exact ((List.sublist_append_left _ _).trans ordered).append (List.Sublist.refl _)
        | pacerRetry =>
            rw [show t.pendingOut = some packet from offers] at ordered
            exact ordered.trans (List.sublist_append_left _ _)
        | _ => cases offers

theorem quiet_writes {turn : Env × Event} (quiet : turn.2.quiet cfg t.session.id)
    (stepped : step cfg t turn = some t') : t'.tunWrites = t.tunWrites := by
  rcases step_react stepped with same | reacts
  · exact congrArg RxState.writes same
  · obtain ⟨env, e⟩ := turn
    cases e with
    | datagram bytes source =>
        simp only [Event.quiet] at quiet
        simp only [RxState.react] at reacts
        cases opened : cfg.openDatagram t.session.id bytes with
        | error why =>
            rw [opened] at reacts
            exact (congrArg RxState.writes (Option.some.inj reacts)).symm
        | ok packet =>
            obtain ⟨hdr, payload⟩ := packet
            rw [opened] at quiet reacts
            simp only [Bool.not_eq_true', decide_eq_false_iff_not] at quiet
            simp only at reacts
            rw [RxState.accept_ungrouped fun grouped => quiet grouped.1, if_neg fun data =>
              quiet (.inl data)] at reacts
            exact (congrArg RxState.writes (Option.some.inj reacts)).symm
    | _ => exact (congrArg RxState.writes (Option.some.inj reacts)).symm

theorem run_reads {reads : List Bytes} (ran : run cfg t turns = some t')
    (ordered : (t.dataSent ++ t.pendingOut.toList).Sublist reads) :
    (t'.dataSent ++ t'.pendingOut.toList).Sublist (reads ++ tunReads turns) := by
  induction turns generalizing t reads with
  | nil =>
      cases ran
      exact ordered.trans (List.sublist_append_left _ _)
  | cons turn turns ih =>
      obtain ⟨mid, stepped, rest⟩ := Runs.run_cons_eq_some.mp ran
      have after := ih rest (step_reads stepped ordered)
      have same : (tunRead turn.2).toList ++ tunReads turns = tunReads (turn :: turns) := by
        simp only [tunReads, List.filterMap_cons]
        cases tunRead turn.2 <;> rfl
      rwa [List.append_assoc, same] at after

theorem run_sends_reads (silent : t.sent = []) (unparked : t.pendingOut = none)
    (ran : run cfg t turns = some t') :
    t'.dataSent.Sublist (tunReads turns) := by
  have start : (t.dataSent ++ t.pendingOut.toList).Sublist [] := by
    rw [dataSent, silent, unparked]
    exact List.Sublist.refl _
  exact (List.sublist_append_left _ _).trans (run_reads ran start)

/-- Nothing is invented, repeated or reordered on the way out: in every run, whatever the
    congestion controller, the data packets sent are some of the packets read from the
    TUN device, each once and in the order in which they were read. -/
theorem dataSent_sublist_reads (silent : t.sent = []) (unparked : t.pendingOut = none)
    (ran : run cfg t turns = some t') : t'.dataSent.Sublist (tunReads turns) :=
  run_sends_reads silent unparked ran

/-- With a pacer between them, the first and the third of three packets are sent. -/
theorem pacedTurns_sublist : ∃ t' : Tunnel (CongestionController ℚ),
    run sampleRenoConfig plainStart pacedTurns = some t' ∧ t'.dataSent.length = 2 ∧
    (tunReads pacedTurns).length = 3 ∧ t'.dataSent.Sublist (tunReads pacedTurns) := by
  have evaluated : (run sampleRenoConfig plainStart pacedTurns).any
    (fun t => decide (t.dataSent.length = 2)) = true := by
    decide +kernel
  obtain ⟨t', ran, checked⟩ := (Option.any_eq_true _ _).mp evaluated
  exact ⟨t', ran, of_decide_eq_true checked, rfl, dataSent_sublist_reads rfl rfl ran⟩

end Tunnel

/-! ## Parity follows its sources -/

namespace History

/-- A data packet of the epoch with the index was sent. -/
def Has (l : History σ) (epoch i : Nat) : Prop :=
  ∃ place p, l.SentAs place p epoch ∧ p.hdr.packetType = .data ∧ p.hdr.fecIndex.toNat = i

/-- Every source of the group being filled was sent, and a parity packet only after all
    sources of its epoch. -/
structure Complete (l : History σ) : Prop where
  filling : ∀ i < l.sender.groupBuffer.length, l.Has l.flushed i
  parity : ∀ place p epoch, l.SentAs place p epoch → p.hdr.packetType = .fec →
    ∀ i < p.hdr.fecK.toNat, l.Has epoch i

variable {tx : Config σ} {l : History σ} {s : Tunnel σ} {buffers : Nat → List Bytes}
  {packets : List Sent} {place epoch i : Nat} {p : Sent}

theorem Has.after (sent : s.sent = l.sender.sent ++ packets) (has : l.Has epoch i) :
    (l.after s).Has epoch i := by
  obtain ⟨place, p, isSent, data, index⟩ := has
  exact ⟨place, p, isSent.after sent, data, index⟩

theorem sentAs_new (sent : s.sent = l.sender.sent ++ packets)
    (count : l.epochs.length = l.sender.sent.length) (new : packets[i]? = some p) :
    (l.after s).SentAs (l.sender.sent.length + i) p l.flushed := by
  have inside := (List.getElem?_eq_some_iff.mp new).1
  refine ⟨?_, ?_⟩
  · simp only [History.after, sent]
    rw [List.getElem?_append_right (Nat.le_add_right _ _), Nat.add_sub_cancel_left, new]
  · simp only [History.after, sent, List.length_append, Nat.add_sub_cancel_left]
    rw [List.getElem?_append_right (count ▸ Nat.le_add_right _ _), count, Nat.add_sub_cancel_left,
      List.getElem?_replicate_of_lt inside]

/-- A turn that leaves the given sources in its epoch. -/
theorem Complete.extend (complete : l.Complete) (scheme : FecScheme)
    (sent : s.sent = l.sender.sent ++ packets) (count : l.epochs.length = l.sender.sent.length)
    (buffer : List Bytes)
    (held : ∀ i < buffer.length, (l.after s).Has l.flushed i)
    (parity : ∀ p ∈ packets, p.hdr.packetType = .fec → ∃ params group,
      p.fecPacket ∈ parityPackets scheme params group buffer ∧ params.k = p.hdr.fecK)
    (filling : (s.groupId = l.sender.groupId ∧ s.groupBuffer = buffer) ∨ s.groupBuffer = []) :
    (l.after s).Complete := by
  constructor
  · intro i inside
    rcases filling with ⟨same, now⟩ | empty
    · rw [show (l.after s).flushed = l.flushed from if_pos same]
      exact held i (now ▸ inside)
    · rw [show (l.after s).sender.groupBuffer = [] from empty] at inside
      cases inside
  · intro place p epoch isSent fec i inside
    rcases sentAs_after sent count isSent with before | ⟨j, -, new, rfl⟩
    · exact (complete.parity place p epoch before fec i inside).after sent
    · obtain ⟨params, group, member, size⟩ := parity p (List.mem_of_getElem? new) fec
      have full := (encodable_of_mem member).full
      exact held i (by rw [full, size]; exact inside)

theorem Complete.send (complete : l.Complete) (sourced : l.Sourced tx buffers) {turn : Env × Event}
    (stepped : Tunnel.step tx l.sender turn = some s) : (l.after s).Complete := by
  obtain ⟨packets, emits, moves⟩ := Tunnel.step_emits stepped
  have old : ∀ i < l.sender.groupBuffer.length, (l.after s).Has l.flushed i := fun i inside =>
    (complete.filling i inside).after emits.sent
  -- the source that joins the group is the first packet of the turn
  have joined : ∀ {p rest}, packets = p :: rest →
      p.fecPacket = dataPacket l.sender.fecParams l.sender.groupId l.sender.groupIndex p.payload →
      ∀ i < (l.sender.groupBuffer ++ [p.payload]).length, (l.after s).Has l.flushed i := by
    rintro p rest rfl packet i inside
    obtain ⟨data, index⟩ := sourced.joins packet
    rw [List.length_append, List.length_singleton] at inside
    rcases Nat.lt_succ_iff_lt_or_eq.mp inside with before | rfl
    · exact old i before
    · exact ⟨_, p, sentAs_new emits.sent sourced.count (i := 0) rfl, data, index⟩
  cases moves with
  | idle control same =>
      refine complete.extend tx.fec emits.sent sourced.count l.sender.groupBuffer old ?_
        (.inl ⟨same.groupId, same.groupBuffer⟩)
      exact fun p member fec => absurd (.inr fec) (control p member)
  | data packet room groupId groupIndex groupBuffer =>
      refine complete.extend tx.fec emits.sent sourced.count _
        (joined rfl packet) ?_ (.inl ⟨groupId, groupBuffer⟩)
      intro q member fec
      obtain rfl := List.mem_singleton.mp member
      rw [(sourced.joins packet).1] at fec
      cases fec
  | fill packet full groupId groupIndex groupBuffer parity =>
      refine complete.extend tx.fec emits.sent sourced.count _
        (joined rfl packet) ?_ (.inr groupBuffer)
      intro q member fec
      rcases List.mem_cons.mp member with rfl | inside
      · rw [(sourced.joins packet).1] at fec
        cases fec
      · exact ⟨_, _, (parity_of_sublist parity inside).2⟩
  | flush nonempty groupId groupIndex groupBuffer parity =>
      refine complete.extend tx.fec emits.sent sourced.count _ old ?_ (.inr groupBuffer)
      exact fun q member fec => ⟨_, _, (parity_of_sublist parity member).2⟩

end History

/-! ## From the wire to the other device -/

/-- The packet is that payload, or when recovery restored it, that payload padded. -/
def TunWrite.Carries (w : TunWrite) (payload : Bytes) : Prop :=
  match w.origin with
  | .data _ => w.bytes = payload
  | .recovered _ _ => ∃ zeros, w.bytes = payload ++ List.replicate zeros 0

namespace Link

variable {tx : Config σ} {rx : Config τ} {l l' : Link σ τ} {buffers : Nat → List Bytes}
  {place epoch i : Nat} {p : Sent}

theorem mem_dataSent {s : Tunnel σ} (sent : p ∈ s.sent) (data : p.hdr.packetType = .data) :
    p.payload ∈ s.dataSent :=
  List.mem_map_of_mem (List.mem_filter.mpr ⟨sent, decide_eq_true data⟩)

theorem mem_dataSent_of_source (sourced : l.Sourced tx buffers) (has : l.Has epoch i)
    {payload : Bytes} (source : (buffers epoch)[i]? = some payload) :
    payload ∈ l.sender.dataSent := by
  obtain ⟨place, p, isSent, data, rfl⟩ := has
  have same := (sourced.data place p epoch isSent data).symm.trans source
  cases same
  exact mem_dataSent (List.mem_of_getElem? isSent.sent) data

theorem Traced.arrive_genuine (traced : l.Traced tx buffers) (complete : l.Complete)
    (pair : rx.Receives tx) {env : Env} {source : SocketAddr}
    (unmixed : l.Unmixed (.arrive place env source))
    (stepped : l.step tx rx (.arrive place env source) = some l') :
    ∀ w ∈ l'.receiver.tunWrites, w ∈ l.receiver.tunWrites ∨
    ∃ payload ∈ l.sender.dataSent, w.Carries payload := by
  have after := traced.arrive pair unmixed stepped
  obtain ⟨p, epoch, t, sent, -, kind, turned, rfl⟩ := arrive_cases stepped
  have own : p.hdr.packetType = .data → (⟨.data p.hdr, p.payload⟩ : TunWrite) ∈
    t.tunWrites → ∃ payload ∈ l.sender.dataSent,
    (⟨.data p.hdr, p.payload⟩ : TunWrite).Carries payload :=
    fun data _ => ⟨p.payload, mem_dataSent (List.mem_of_getElem? sent.sent) data, rfl⟩
  intro w written
  have written : w ∈ t.tunWrites := written
  rcases traced.accepts pair sent kind turned with ⟨-, rfl⟩ | ⟨-, accepted⟩
  · exact .inl written
  by_cases grouped : (p.hdr.fecPacket p.payload).Grouped
  · obtain ⟨g', lost, arrived, groups, writes⟩ := RxState.accept_cases grouped accepted
    have groups : t.rxGroups = l.receiver.rxGroups.insert p.hdr.fecGroup g' := groups
    have writes : t.tunWrites = _ := writes
    have held : t.rxGroups.lookup p.hdr.fecGroup = some g' := by rw [groups, AList.lookup_insert]
    have all := written
    rw [writes] at written
    rcases List.mem_append.mp written with before | recovered
    · unfold RxState.writeOwn at before
      split at before
      · rename_i fresh
        rcases List.mem_append.mp before with old | now
        · exact .inl old
        · rw [List.mem_singleton.mp now] at all ⊢
          exact .inr (own fresh.1 all)
      · exact .inl before
    · obtain ⟨e, member, rfl⟩ := List.mem_map.mp recovered
      obtain ⟨numbered, unmixed⟩ := unmixed p epoch sent grouped.2
      obtain ⟨opened, isOpened⟩ : ∃ opened,
        opened = (l.afterArrival place epoch p t).opened := ⟨_, rfl⟩
      obtain ⟨same, size, explained⟩ := traced.target env.now isOpened unmixed
      have shaped : p.fecPacket.Shaped (l.receiver.rxState.target env.now p.fecPacket).k :=
        History.Proper.shaped traced.sourced ⟨sent, kind, size.symm, size ▸ numbered⟩
      obtain ⟨inside, -, j, x, behind, slot⟩ :=
        RxGroup.arrive_lost_parity explained.tracks shaped arrived member
      -- the parity among the symbols is of this epoch, and all its sources were sent
      have symbols := (after.groups _ g' held).symbols
      rw [← isOpened, same] at symbols
      obtain ⟨place', q, proper, rfl, -⟩ := symbols j x slot
      have fec : q.hdr.packetType = .fec := by
        rcases proper.kind with data | fec
        · exact absurd (UInt8.lt_iff_toNat_lt.mp (proper.numbered data)) (Nat.not_lt.mpr behind)
        · exact fec
      have has : l.Has epoch e.1 :=
        complete.parity place' q epoch proper.sent fec e.1 (proper.size ▸ inside)
      obtain ⟨payload, zeros, found, bytes, -⟩ :=
        RxGroup.arrive_lost explained.tracks shaped arrived
        (traced.sourced.holdsOf symbols) e member
      exact .inr ⟨payload, mem_dataSent_of_source traced.sourced has found, zeros, bytes⟩
  · rw [RxState.accept_ungrouped grouped] at accepted
    have writes : t.tunWrites = _ := (congrArg RxState.writes (Option.some.inj accepted)).symm
    have all := written
    rw [writes] at written
    split at written
    · rename_i data
      rcases List.mem_append.mp written with old | now
      · exact .inl old
      · rw [List.mem_singleton.mp now] at all ⊢
        exact .inr (own data all)
    · exact .inl written

/-- The packets that the sender read from its TUN device. -/
def tunReads (events : List LinkEvent) : List Bytes :=
  events.filterMap fun
    | .send turn => Tunnel.tunRead turn.2
    | _ => none

/-- What was read was sent in order, and what was written was sent. -/
structure Genuine (tx : Config σ) (reads : List Bytes) (l : Link σ τ) : Prop where
  traced : ∃ buffers, l.Traced tx buffers
  complete : l.Complete
  ordered : (l.sender.dataSent ++ l.sender.pendingOut.toList).Sublist reads
  writes : ∀ w ∈ l.receiver.tunWrites, ∃ payload ∈ l.sender.dataSent, w.Carries payload

theorem Genuine.step {e : LinkEvent} {reads : List Bytes} (genuine : l.Genuine tx reads)
    (pair : rx.Receives tx) (unmixed : l.Unmixed e) (stepped : l.step tx rx e = some l') :
    l'.Genuine tx (reads ++ tunReads [e]) := by
  obtain ⟨⟨buffers, traced⟩, complete, ordered, writes⟩ := genuine
  have after := traced.step pair unmixed stepped
  cases e with
  | send turn =>
      obtain ⟨s, turned, rfl⟩ := Option.map_eq_some_iff.mp stepped
      obtain ⟨packets, emits, -⟩ := Tunnel.step_emits turned
      have read : (Tunnel.tunRead turn.2).toList = tunReads [.send turn] := by
        simp only [tunReads, List.filterMap_cons, List.filterMap_nil]
        cases Tunnel.tunRead turn.2 <;> rfl
      refine ⟨after, complete.send traced.sourced turned,
        read ▸ Tunnel.step_reads turned ordered, fun w written => ?_⟩
      obtain ⟨payload, sent, carries⟩ := writes w written
      refine ⟨payload, ?_, carries⟩
      change payload ∈ s.dataSent
      rw [Tunnel.dataSent, emits.sent, List.filter_append, List.map_append]
      exact List.mem_append_left _ sent
  | arrive place env source =>
      have genuine := traced.arrive_genuine complete pair unmixed stepped
      obtain ⟨p, epoch, t, -, -, -, -, rfl⟩ := arrive_cases stepped
      refine ⟨after, complete, ordered.trans (List.sublist_append_left _ _),
        fun w written => ?_⟩
      exact (genuine w written).elim (writes w) id
  | hear turn =>
      simp only [Link.step] at stepped
      split at stepped
      · rename_i quiet
        obtain ⟨t, turned, rfl⟩ := Option.map_eq_some_iff.mp stepped
        refine ⟨after, complete, ordered.trans (List.sublist_append_left _ _), fun w written =>
          writes w ?_⟩
        rw [← Tunnel.quiet_writes quiet turned]
        exact written
      · cases stepped

/-- Over a network that loses and reorders data and parity packets and delivers each at most
    once, as long as no packet finds the group of another under its id, every packet that
    the receiver hands to its TUN device is a packet that the sender read from its own, byte
    for byte, or followed by zeros when recovery restored it. -/
theorem writes_genuine (pair : rx.Receives tx) {s : Tunnel σ} {t : Tunnel τ}
    (silent : s.sent = []) (unparked : s.pendingOut = none) (buffer : s.groupBuffer = [])
    (index : s.groupIndex = 0) (fresh : Tunnel.Fresh t) (own : t.session.id = s.session.id)
    {events : List LinkEvent}
    (unmixed : Runs.Along (step tx rx) Unmixed (new s t) events)
    (ran : Runs.run (step tx rx) (new s t) events = some l) :
    ∀ w ∈ l.receiver.tunWrites, ∃ payload ∈ tunReads events, w.Carries payload := by
  have genuine : ∀ {events : List LinkEvent} {l₀ : Link σ τ} {reads : List Bytes},
    l₀.Genuine tx reads → Runs.Along (step tx rx) Unmixed l₀ events → Runs.run
    (step tx rx) l₀ events = some l → l.Genuine tx (reads ++ tunReads events) := by
    intro events
    induction events with
    | nil =>
        intro l₀ reads start along ran
        cases ran
        exact (List.append_nil reads).symm ▸ start
    | cons e events ih =>
        intro l₀ reads start along ran
        obtain ⟨mid, stepped, rest⟩ := Runs.run_cons_eq_some.mp ran
        obtain ⟨now, later⟩ := Runs.along_cons.mp along
        have after := ih (start.step pair now stepped) (later mid stepped) rest
        have same : tunReads [e] ++ tunReads events = tunReads (e :: events) :=
          (List.filterMap_append (l := [e])).symm
        rwa [List.append_assoc, same] at after
  have nothing : ∀ {place p epoch}, ¬ (new s t).SentAs place p epoch := fun sent => by
    have none : (none : Option Nat) = some _ := sent.epoch
    cases none
  have start : (new s t).Genuine tx [] := by
    refine ⟨⟨_, new_traced silent buffer index fresh own⟩, ⟨fun i inside => ?_, ?_⟩, ?_,
      fun w written => ?_⟩
    · rw [new, buffer] at inside
      cases inside
    · exact fun _ _ _ sent => absurd sent nothing
    · rw [new, Tunnel.dataSent, silent, unparked]
      exact List.Sublist.refl _
    · rw [new, fresh.tunWrites] at written
      cases written
  obtain ⟨-, -, ordered, writes⟩ := genuine start unmixed ran
  intro w written
  obtain ⟨payload, sent, carries⟩ := writes w written
  exact ⟨payload, ordered.subset (List.mem_append_left _ sent), carries⟩

/-- The data packet of a group is lost, and a parity packet brings it back. -/
theorem recovered_genuine : ∃ l, Runs.run (step sampleSender sampleReceiver) sampleLink
      [sampleSend, sampleArrive 1] = some l ∧ ∃ w ∈ l.receiver.tunWrites,
    w.origin = .recovered 0 0 ∧ ∃ payload ∈ tunReads [sampleSend], w.Carries payload := by
  have evaluated :
    (Runs.run (step sampleSender sampleReceiver) sampleLink
    [sampleSend, sampleArrive 1]).any (fun l =>
      l.receiver.tunWrites.any fun w => decide (w.origin = .recovered 0 0)) = true := by
    decide +kernel
  obtain ⟨l, ran, checked⟩ := (Option.any_eq_true _ _).mp evaluated
  obtain ⟨w, written, origin⟩ := List.any_eq_true.mp checked
  refine ⟨l, ran, w, written, of_decide_eq_true origin, ?_⟩
  exact writes_genuine (Tunnel.sampleConfig_receives _ _) rfl rfl rfl rfl ⟨rfl, rfl, rfl, rfl⟩
    rfl (Runs.along_of_check unmixed_of_check (by decide +kernel)) ran w written

end Link

/-! ## Over any network -/

/-- What the end wrote as it came is a data packet that it heard. -/
def End.Grounded (e : End σ) : Prop :=
  ∀ w ∈ e.tunnel.tunWrites, ∀ hdr, w.origin = .data hdr → (hdr, w.bytes) ∈ e.heard ∧
    hdr.packetType = .data

theorem Tunnel.Move.grounded {cfg : Config σ} {env : Env} {phase : Tunnel.Phase}
    {packet : Option (PacketHeader × Bytes)} {t t' : Tunnel σ} {notes : List Tunnel.Note}
    {heard : List (PacketHeader × Bytes)} (known : ∀ p, packet = some p → p ∈ heard)
    (move : Tunnel.Move cfg env phase packet t notes t') (grounded : End.Grounded ⟨t, heard⟩) :
    End.Grounded ⟨t', heard⟩ := by
  cases move with
  | delivers opened kind =>
      rename_i hdr payload
      intro w written hdr' origin
      rcases List.mem_append.mp written with before | now
      · exact grounded w before hdr' origin
      · rw [List.mem_singleton.mp now] at origin ⊢
        cases origin
        exact ⟨known _ opened, kind⟩
  | recovers groups group lost =>
      intro w written hdr origin
      rcases List.mem_append.mp written with before | now
      · exact grounded w before hdr origin
      · obtain ⟨e, -, rfl⟩ := List.mem_map.mp now
        cases origin
  | _ => exact grounded

theorem End.Grounded.step {cfg : Config σ} {e e' : End σ} {turn : Env × Event}
    (grounded : e.Grounded) (stepped : e.step cfg turn = some e') : e'.Grounded := by
  obtain ⟨heard, turned⟩ := End.step_grows stepped
  have more : e.heard ⊆ e'.heard := heard ▸ List.subset_append_left _ _
  cases exited : e.tunnel.exit with
  | some exit =>
      rw [Tunnel.step_exited _ (by rw [exited]; rfl)] at turned
      have same : e.tunnel = e'.tunnel := Option.some.inj turned
      intro w written hdr origin
      rw [← same] at written
      exact (grounded w written hdr origin).imp_left fun member => more member
  | none =>
      have known : ∀ p, e.tunnel.opened cfg turn.2 = some p → p ∈ e'.heard := by
        intro p opened
        rw [heard]
        exact List.mem_append_right _ (End.mem_heardOf_notes exited opened)
      exact (Tunnel.step_moves turned).preserves (fun t => End.Grounded ⟨t, e'.heard⟩)
        (fun _ _ _ => Tunnel.Move.grounded known)
        (fun w written hdr origin => (grounded w written hdr origin).imp_left fun member =>
          more member)

namespace Duplex

variable {tx : Config σ} {rx : Config τ} {d d' : Duplex σ τ} {start start' : UInt32}

def leftReads (events : List DuplexEvent) : List Bytes :=
  events.filterMap fun
    | .left turn => Tunnel.tunRead turn.2
    | .right _ => none

def rightReads (events : List DuplexEvent) : List Bytes :=
  events.filterMap fun
    | .left _ => none
    | .right turn => Tunnel.tunRead turn.2

/-- Both ends are grounded, and send what they read. -/
structure Authentic (left right : List Bytes) (d : Duplex σ τ) : Prop where
  leftGrounded : d.left.Grounded
  rightGrounded : d.right.Grounded
  leftOrdered : (d.left.tunnel.dataSent ++ d.left.tunnel.pendingOut.toList).Sublist left
  rightOrdered : (d.right.tunnel.dataSent ++ d.right.tunnel.pendingOut.toList).Sublist right

theorem Authentic.step {e : DuplexEvent} {left right : List Bytes}
    (authentic : d.Authentic left right) (stepped : d.step tx rx e = some d') :
    d'.Authentic (left ++ leftReads [e]) (right ++ rightReads [e]) := by
  obtain ⟨leftGrounded, rightGrounded, leftOrdered, rightOrdered⟩ := authentic
  have read : ∀ e : Event, (Tunnel.tunRead e).toList = [e].filterMap Tunnel.tunRead := fun e => by
    simp only [List.filterMap_cons, List.filterMap_nil]
    cases Tunnel.tunRead e <;> rfl
  cases e with
  | left turn =>
      obtain ⟨e, turned, rfl⟩ := Option.map_eq_some_iff.mp stepped
      have ordered := Tunnel.step_reads (End.step_grows turned).2 leftOrdered
      rw [read] at ordered
      exact ⟨leftGrounded.step turned, rightGrounded, ordered,
        rightOrdered.trans (List.sublist_append_left _ _)⟩
  | right turn =>
      obtain ⟨e, turned, rfl⟩ := Option.map_eq_some_iff.mp stepped
      have ordered := Tunnel.step_reads (End.step_grows turned).2 rightOrdered
      rw [read] at ordered
      exact ⟨leftGrounded, rightGrounded.step turned,
        leftOrdered.trans (List.sublist_append_left _ _), ordered⟩

theorem Authentic.written {left right : List Bytes} (authentic : d.Authentic left right)
    (honest : d.Honest start start') :
    (∀ w ∈ d.right.tunnel.tunWrites, ∀ hdr, w.origin = .data hdr → w.bytes ∈ left) ∧
    (∀ w ∈ d.left.tunnel.tunWrites, ∀ hdr, w.origin = .data hdr → w.bytes ∈ right) := by
  obtain ⟨leftGrounded, rightGrounded, leftOrdered, rightOrdered⟩ := authentic
  constructor
  · intro w written hdr origin
    obtain ⟨heard, data⟩ := rightGrounded w written hdr origin
    obtain ⟨p, sent, same⟩ := honest.rightHeard _ heard
    obtain ⟨rfl, payload⟩ := Prod.mk.inj same
    rw [← payload]
    exact leftOrdered.subset (List.mem_append_left _ (Link.mem_dataSent sent data))
  · intro w written hdr origin
    obtain ⟨heard, data⟩ := leftGrounded w written hdr origin
    obtain ⟨p, sent, same⟩ := honest.leftHeard _ heard
    obtain ⟨rfl, payload⟩ := Prod.mk.inj same
    rw [← payload]
    exact rightOrdered.subset (List.mem_append_left _ (Link.mem_dataSent sent data))

theorem New.authentic (left : d.left.New) (right : d.right.New)
    (unparked : d.left.tunnel.pendingOut = none ∧ d.right.tunnel.pendingOut = none)
    (unwritten : d.left.tunnel.tunWrites = [] ∧ d.right.tunnel.tunWrites = []) :
    d.Authentic [] [] := by
  refine ⟨fun w written => ?_, fun w written => ?_, ?_, ?_⟩
  · rw [unwritten.1] at written
    cases written
  · rw [unwritten.2] at written
    cases written
  · rw [Tunnel.dataSent, left.sent, unparked.1]
    exact List.Sublist.refl _
  · rw [Tunnel.dataSent, right.sent, unparked.2]
    exact List.Sublist.refl _

/-- Whatever the network repeats, reorders, drops or makes up, as long as the ciphers are not
    forged, a packet that a tunnel writes as it came is one that the other tunnel read
    from its TUN device. -/
theorem writes_from_peer {events : List DuplexEvent} (left : d.left.New) (right : d.right.New)
    (unparked : d.left.tunnel.pendingOut = none ∧ d.right.tunnel.pendingOut = none)
    (unwritten : d.left.tunnel.tunWrites = [] ∧ d.right.tunnel.tunWrites = [])
    (unforged : Runs.Along (step tx rx) (Unforged tx rx) d events)
    (ran : Runs.run (step tx rx) d events = some d') :
    (∀ w ∈ d'.right.tunnel.tunWrites, ∀ hdr, w.origin = .data hdr → w.bytes ∈
      leftReads events) ∧
    (∀ w ∈ d'.left.tunnel.tunWrites, ∀ hdr, w.origin = .data hdr → w.bytes ∈
      rightReads events) := by
  have honest := Runs.invariant_along (Honest _ _) (fun _ _ _ unforged stepped honest =>
    honest.step unforged stepped) unforged ran (New.honest left right)
  have authentic : ∀ {events : List DuplexEvent} {d : Duplex σ τ} {left right : List Bytes},
    d.Authentic left right → Runs.run (step tx rx) d events = some d' →
      d'.Authentic (left ++ leftReads events) (right ++ rightReads events) := by
    intro events
    induction events with
    | nil =>
        intro d left right start ran
        cases ran
        exact (List.append_nil left).symm ▸ (List.append_nil right).symm ▸ start
    | cons e events ih =>
        intro d left right start ran
        obtain ⟨mid, stepped, rest⟩ := Runs.run_cons_eq_some.mp ran
        have after := ih (start.step stepped) rest
        have lefts : leftReads [e] ++ leftReads events = leftReads (e :: events) :=
          (List.filterMap_append (l := [e])).symm
        have rights : rightReads [e] ++ rightReads events = rightReads (e :: events) :=
          (List.filterMap_append (l := [e])).symm
        rwa [List.append_assoc, lefts, List.append_assoc, rights] at after
  exact (authentic (New.authentic left right unparked unwritten) ran).written honest

theorem acknowledgedOnce_written :
    ∃ d', Runs.run (step sampleLeft sampleRight) sample acknowledgedOnce = some d' ∧
    d'.right.tunnel.tunWrites ≠ [] ∧
    ∀ w ∈ d'.right.tunnel.tunWrites, ∀ hdr, w.origin = .data hdr → w.bytes ∈
    leftReads acknowledgedOnce := by
  have evaluated : (Runs.run (step sampleLeft sampleRight) sample acknowledgedOnce).any (fun d =>
      decide (d.right.tunnel.tunWrites ≠ [])) = true := by
    decide +kernel
  obtain ⟨d', ran, checked⟩ := (Option.any_eq_true _ _).mp evaluated
  exact ⟨d', ran, of_decide_eq_true checked,
    (writes_from_peer sample_new.1 sample_new.2 ⟨rfl, rfl⟩
      ⟨rfl, rfl⟩ acknowledgedOnce_unforged ran).1⟩

end Duplex

end Rustnies
