import Rustnies.TcpReno
import Rustnies.Tunnel.Nonces

/-! # Bytes in flight

`sent_packets` and the controller are two records of the same thing: what was sent and
not yet resolved. Every data and parity packet is reserved in the controller before its
seal, and is either refunded or recorded; a reconciliation takes packets off the table
and their bytes off the controller. So the two agree in every state, and every packet
that was recorded is on the table or was resolved once.
-/

namespace Rustnies

instance : DecidablePred Sent.IsFec := fun _ => inferInstanceAs (Decidable (_ ∨ _))

/-- The number and the bytes that the sender records for a packet. -/
def Sent.charge (s : Sent) : UInt32 × Nat := (s.hdr.seq, max s.payload.length 1)

namespace Tunnel

variable {σ : Type}

/-- The packets that were recorded, in the order of their sending. -/
def recorded (t : Tunnel σ) : List (UInt32 × Nat) :=
  (t.sent.filter fun s => s.IsFec).map Sent.charge

/-- The packets that await an acknowledgement. -/
def unresolved (t : Tunnel σ) : List (UInt32 × Nat) :=
  t.sentPackets.entries.map fun e => (e.1, e.2.bytes)

/-- The packets that were resolved, each time with its bytes. -/
def settled (t : Tunnel σ) : List (UInt32 × Nat) := t.resolutions.map fun r => (r.1, r.2.2.bytes)

def recordedBytes (t : Tunnel σ) : Nat := (t.unresolved.map Prod.snd).sum

/-- The two records agree but for what is reserved and not yet sent, and what was
    recorded is unresolved or was resolved, each packet once. -/
structure Balanced (inFlight : σ → Nat) (start : UInt32) (held : Nat) (t : Tunnel σ) :
    Prop where
  inFlight : inFlight t.congestion = t.recordedBytes + held
  counter : t.session.nextSeq = start + UInt32.ofNat t.seals.length
  drawn : ∀ s ∈ t.sent, ∃ i < t.seals.length, s.hdr.seq = start + UInt32.ofNat i
  once : (t.recorded.map Prod.fst).Nodup
  accounted : t.recorded.Perm (t.unresolved ++ t.settled)

/-- An operation that starts with some bytes reserved and ends with others. -/
structure Balances (inFlight : σ → Nat) (start : UInt32) (held held' : Nat) (t t' : Tunnel σ) :
    Prop where
  grows : t.seals.length ≤ t'.seals.length
  keeps : t'.seals.length < 2 ^ 32 → t.Balanced inFlight start held → t'.Balanced
    inFlight start held'

variable {cfg : Config σ} {env : Env} {inFlight : σ → Nat} {start : UInt32}
  {held held' held'' : Nat} {t t' t'' : Tunnel σ}

namespace Balances

theorem refl (t : Tunnel σ) : Balances inFlight start held held t t :=
  ⟨Nat.le_refl _, fun _ balanced => balanced⟩

theorem trans (first : Balances inFlight start held held' t t')
    (second : Balances inFlight start held' held'' t' t'') :
    Balances inFlight start held held'' t t'' where
  grows := first.grows.trans second.grows
  keeps few balanced :=
    second.keeps few (first.keeps (Nat.lt_of_le_of_lt second.grows few) balanced)

theorem of_same
    (congestion : held ≤ inFlight t.congestion → inFlight t'.congestion + held =
      inFlight t.congestion + held') (next : t'.session.nextSeq = t.session.nextSeq)
    (seals : t'.seals = t.seals) (sent : t'.sent = t.sent)
    (packets : t'.sentPackets = t.sentPackets) (resolutions : t'.resolutions = t.resolutions) :
    Balances inFlight start held held' t t' where
  grows := by rw [seals]
  keeps _ balanced := by
    have bytes : t'.recordedBytes = t.recordedBytes :=
      by rw [recordedBytes, unresolved, packets]; rfl
    have records : t'.recorded = t.recorded := by rw [recorded, sent]; rfl
    refine ⟨?_, ?_, ?_, ?_, ?_⟩
    · have before := balanced.inFlight
      have change := congestion (by omega)
      omega
    · rw [next, seals]
      exact balanced.counter
    · rw [sent, seals]
      exact balanced.drawn
    · rw [records]
      exact balanced.once
    · rw [records, unresolved, settled, packets, resolutions]
      exact balanced.accounted

end Balances

/-! ## Sending -/

section Sending

variable {hdr : PacketHeader} {payload : Bytes} {ptype : PacketType}

theorem Balanced.fresh (balanced : t.Balanced inFlight start held) (few : t.seals.length < 2 ^ 32) :
    ∀ s ∈ t.sent, s.hdr.seq ≠ t.session.nextSeq := by
  intro s member same
  obtain ⟨i, inside, drawn⟩ := balanced.drawn s member
  rw [drawn, balanced.counter] at same
  exact absurd (seq_injective (inside.trans few) few same) (Nat.ne_of_lt inside)

theorem sealPacket_same {wire : Option Bytes}
    (made : (t.nextHeader ptype).2.sealPacket cfg hdr payload = (wire, t')) :
    t'.seals.length = t.seals.length + 1 ∧ t'.session.nextSeq = t.session.nextSeq + 1 ∧
    t'.sent = t.sent := by
  cases made
  exact ⟨List.length_append, rfl, rfl⟩

theorem balances_sealPacket {wire : Option Bytes}
    (made : (t.nextHeader ptype).2.sealPacket cfg hdr payload = (wire, t')) :
    Balances inFlight start held held t t' := by
  obtain ⟨count, next, sent⟩ := sealPacket_same made
  refine ⟨by omega, fun few balanced => ?_⟩
  cases made
  refine ⟨balanced.inFlight, ?_, ?_, balanced.once, balanced.accounted⟩
  · rw [count, next, balanced.counter, UInt32.ofNat_add, UInt32.add_assoc]
    rfl
  · intro s member
    obtain ⟨i, inside, drawn⟩ := balanced.drawn s member
    exact ⟨i, by omega, drawn⟩

theorem drawn_recordSent {wire : Bytes} (seq : hdr.seq = t.session.nextSeq)
    (made : (t.nextHeader ptype).2.sealPacket cfg hdr payload = (some wire, t'))
    (balanced : t.Balanced inFlight start held) :
    ∀ s ∈ (t'.recordSent hdr payload wire).sent, ∃ i < t'.seals.length,
    s.hdr.seq = start + UInt32.ofNat i := by
  obtain ⟨count, -, sent⟩ := sealPacket_same made
  intro s member
  rw [recordSent, sent] at member
  rcases List.mem_append.mp member with old | last
  · obtain ⟨i, inside, drawn⟩ := balanced.drawn s old
    exact ⟨i, by omega, drawn⟩
  · obtain rfl := List.mem_singleton.mp last
    exact ⟨t.seals.length, by omega, seq.trans balanced.counter⟩

theorem balances_control {wire : Bytes} (seq : hdr.seq = t.session.nextSeq)
    (made : (t.nextHeader ptype).2.sealPacket cfg hdr payload = (some wire, t'))
    (control : ¬ (hdr.packetType = .data ∨ hdr.packetType = .fec)) :
    Balances inFlight start held held t (t'.recordSent hdr payload wire) := by
  have sealed : Balances inFlight start held held t t' := balances_sealPacket made
  refine ⟨sealed.grows, fun few balanced => ?_⟩
  have after := sealed.keeps few balanced
  have same : (t'.recordSent hdr payload wire).recorded = t'.recorded := by
    have other : ¬ Sent.IsFec ⟨hdr, payload, wire, t'.peer⟩ := control
    simp [recorded, recordSent, List.filter_append, other]
  refine ⟨after.inFlight, after.counter, ?_, ?_, ?_⟩
  · exact drawn_recordSent seq made balanced
  · rw [same]
    exact after.once
  · rw [same]
    exact after.accounted

theorem balances_transmitted {wire : Bytes} {kind : SentPacketKind}
    (seq : hdr.seq = t.session.nextSeq)
    (made : (t.nextHeader ptype).2.sealPacket cfg hdr payload = (some wire, t'))
    (fec : hdr.packetType = .data ∨ hdr.packetType = .fec) :
    Balances inFlight start (held + max payload.length 1) held t
      (t'.noteTransmitted env hdr payload wire (max payload.length 1) kind) := by
  have sealed : Balances inFlight start (held + max payload.length 1)
    (held + max payload.length 1) t t' :=
    balances_sealPacket made
  refine ⟨sealed.grows, fun few balanced => ?_⟩
  have after := sealed.keeps few balanced
  have fresh := balanced.fresh (Nat.lt_of_le_of_lt sealed.grows few)
  have sent : t'.sent = t.sent := (sealPacket_same made).2.2
  have unused : hdr.seq ∉ t'.recorded.map Prod.fst := by
    intro member
    simp only [recorded, sent, List.map_map, List.mem_map, List.mem_filter] at member
    obtain ⟨s, ⟨old, -⟩, same⟩ := member
    exact fresh s old (same.trans seq)
  have absent : hdr.seq ∉ t'.sentPackets := by
    intro member
    refine unused (List.Perm.mem_iff (after.accounted.map Prod.fst) |>.mpr ?_)
    rw [List.map_append, List.mem_append]
    refine .inl ?_
    rw [unresolved, List.map_map]
    exact member
  have records : (t'.noteTransmitted env hdr payload wire (max payload.length 1) kind).recorded =
      t'.recorded ++ [(hdr.seq, max payload.length 1)] := by
    have charged : Sent.IsFec ⟨hdr, payload, wire, t'.peer⟩ := fec
    simp [recorded, noteTransmitted, noteSentPacket, recordSent, List.filter_append, charged,
      Sent.charge]
  have table : (t'.noteTransmitted env hdr payload wire (max payload.length 1) kind).unresolved =
      (hdr.seq, max payload.length 1) :: t'.unresolved := by
    simp only [unresolved, noteTransmitted, noteSentPacket, recordSent,
      AList.entries_insert_of_notMem absent, List.map_cons]
  refine ⟨?_, after.counter, drawn_recordSent seq made balanced, ?_, ?_⟩
  · rw [recordedBytes, table, List.map_cons, List.sum_cons]
    have before := after.inFlight
    rw [recordedBytes] at before
    show inFlight t'.congestion = _
    omega
  · rw [records, List.map_append]
    refine List.nodup_append.mpr ⟨after.once, List.nodup_singleton _, ?_⟩
    rintro a member b last rfl
    rw [List.mem_singleton.mp last] at member
    exact unused member
  · rw [records, table]
    exact (List.perm_append_singleton _ _).trans (after.accounted.cons _)

end Sending

section Operations

variable (accounts : cfg.congestion.Accounts inFlight)

include accounts

theorem refund_balances (bytes : Nat) :
    Balances inFlight start (held + bytes) held t (t.refund cfg bytes) := by
  refine .of_same (fun enough => ?_) rfl rfl rfl rfl rfl
  rw [refund, accounts.refunds]
  omega

omit accounts in
theorem sendPacket_balances (t : Tunnel σ) (ptype : PacketType)
    (control : ¬ (ptype = .data ∨ ptype = .fec)) (payload : Bytes) :
    Balances inFlight start held held t (t.sendPacket cfg env ptype payload) := by
  simp only [sendPacket]
  rcases made : sealPacket cfg (t.nextHeader ptype).2 (t.nextHeader ptype).1 payload
    with ⟨_ | wire, mid⟩
  · exact balances_sealPacket made
  · simp only
    split
    · exact balances_control rfl made control
    · exact balances_sealPacket made

omit accounts in
theorem sendControl_balances (t : Tunnel σ) (ptype : PacketType)
    (control : ¬ (ptype = .data ∨ ptype = .fec)) (payload : Bytes) :
    Balances inFlight start held held t (t.sendControl cfg env ptype payload) := by
  simp only [sendControl]
  rcases made : sealPacket cfg (t.nextHeader ptype).2 (t.nextHeader ptype).1 payload
    with ⟨_ | wire, mid⟩
  · exact balances_sealPacket made
  · simp only
    split
    · have sent : Balances inFlight start held held t
        (mid.recordSent (t.nextHeader ptype).1 payload wire) :=
        balances_control rfl made control
      split
      · exact sent.trans (.of_same (fun _ => rfl) rfl rfl rfl rfl rfl)
      · exact sent
    · exact balances_sealPacket made

theorem sendParity_balances (k : Nat) (group : UInt16) (t : Tunnel σ) (parity : Bytes) (i : Nat) :
    Balances inFlight start held held t (t.sendParity cfg env k group parity i) := by
  have asked := accounts.parity env.now t.congestion (max parity.length 1) (Nat.le_max_right _ _)
  simp only [sendParity]
  cases granted : (cfg.congestion.trySendParity env.now t.congestion (max parity.length 1)).1 with
  | false =>
      rw [granted] at asked
      exact .of_same (fun _ => congrArg (· + held) asked) rfl rfl rfl rfl rfl
  | true =>
      rw [granted] at asked
      have reserved : Balances inFlight start held (held + max parity.length 1) t { t with
          congestion :=
            (cfg.congestion.trySendParity env.now t.congestion (max parity.length 1)).2 } := by
        refine .of_same (fun _ => ?_) rfl rfl rfl rfl rfl
        simp only [asked, if_true]
        omega
      refine reserved.trans ?_
      simp only [Bool.not_true, Bool.false_eq_true, if_false]
      split
      · rename_i mid made
        exact (balances_sealPacket made).trans (refund_balances accounts _)
      · rename_i wire mid made
        split
        · refine (balances_sealPacket made).trans (.trans ?_ (refund_balances accounts _))
          exact .of_same (fun _ => rfl) rfl rfl rfl rfl rfl
        · split
          · exact balances_transmitted rfl made (.inr rfl)
          · exact (balances_sealPacket made).trans (refund_balances accounts _)

theorem flushFecGroup_balances (t : Tunnel σ) :
    Balances inFlight start held held t (t.flushFecGroup cfg env) := by
  have parities : ∀ (k : Nat) (group : UInt16) (ps : List (Bytes × Nat)) (t : Tunnel σ),
      Balances inFlight start held held t
        (ps.foldl (fun t p => t.sendParity cfg env k group p.1 p.2) t) := by
    intro k group ps
    induction ps with
    | nil => exact .refl
    | cons p ps ih => exact fun t => (sendParity_balances accounts k group t p.1 p.2).trans (ih _)
  simp only [flushFecGroup]
  split
  · exact .refl t
  · have opened : Balances inFlight start held held t
        { t with groupBuffer := [], groupIndex := 0, groupId := t.groupId + 1 } :=
      .of_same (fun _ => rfl) rfl rfl rfl rfl rfl
    split
    · exact opened
    · split
      · exact opened
      · exact opened.trans (parities _ _ _ _)

theorem joinGroup_balances (t : Tunnel σ) (k : UInt8) (packet : Bytes) :
    Balances inFlight start held held t (t.joinGroup cfg env k packet) := by
  have joined : Balances inFlight start held held t
      { t with groupBuffer := t.groupBuffer ++ [packet], groupIndex := t.groupIndex + 1 } :=
    .of_same (fun _ => rfl) rfl rfl rfl rfl rfl
  simp only [joinGroup]
  split
  · exact joined.trans (flushFecGroup_balances accounts _)
  · exact joined

theorem sendData_balances (t : Tunnel σ) (packet : Bytes) :
    Balances inFlight start (held + max packet.length 1) held t
      (t.sendData cfg env packet (max packet.length 1)).2 := by
  simp only [sendData]
  split
  · rename_i mid made
    exact (balances_sealPacket made).trans (refund_balances accounts _)
  · rename_i wire mid made
    split
    · refine (balances_sealPacket made).trans (.trans ?_ (refund_balances accounts _))
      exact .of_same (fun _ => rfl) rfl rfl rfl rfl rfl
    · split
      · exact (balances_transmitted rfl made (.inl rfl)).trans (joinGroup_balances accounts _ _ _)
      · exact (balances_sealPacket made).trans (refund_balances accounts _)

theorem handleTunPacket_balances (t : Tunnel σ) (packet : Bytes) :
    Balances inFlight start held held t (t.handleTunPacket cfg env packet).2 := by
  simp only [handleTunPacket]
  split
  · exact .of_same (fun _ => rfl) rfl rfl rfl rfl rfl
  · split
    · exact .of_same (fun _ => rfl) rfl rfl rfl rfl rfl
    · cases admitted : (cfg.congestion.maySend env.now t.congestion (max packet.length 1)).1 with
      | false =>
          refine .of_same (fun _ => ?_) rfl rfl rfl rfl rfl
          exact congrArg (· + held) (accounts.waits env.now t.congestion (max packet.length 1))
      | true =>
          refine .trans ?_ (sendData_balances accounts _ packet)
          refine .of_same (fun _ => ?_) rfl rfl rfl rfl rfl
          simp only [accounts.reserves env.now t.congestion _ (Nat.le_max_right _ _) admitted]
          omega

omit accounts in
theorem parkIfPaced_balances (t : Tunnel σ) (packet : Bytes) :
    Balances inFlight start held held t (t.parkIfPaced cfg env packet) := by
  simp only [parkIfPaced]
  split
  · exact .of_same (fun _ => rfl) rfl rfl rfl rfl rfl
  · exact .refl t

theorem onTun_balances (t : Tunnel σ) (packet : Bytes) :
    Balances inFlight start held held t (t.onTun cfg env packet) := by
  have parked : Balances inFlight start held held t (t.park none none) :=
    .of_same (fun _ => rfl) rfl rfl rfl rfl rfl
  have handled : Balances inFlight start held held t
    ((t.park none none).handleTunPacket cfg env packet).2 :=
    parked.trans (handleTunPacket_balances accounts _ packet)
  simp only [onTun]
  split
  · rename_i mid outcome
    rwa [outcome] at handled
  · rename_i mid outcome
    rw [outcome] at handled
    exact handled.trans (parkIfPaced_balances mid packet)

theorem retryPending_balances (t : Tunnel σ) :
    Balances inFlight start held held t (t.retryPending cfg env) := by
  have parked : ∀ (t : Tunnel σ) packet deadline, Balances inFlight start held held t
    (t.park packet deadline) :=
    fun _ _ _ => .of_same (fun _ => rfl) rfl rfl rfl rfl rfl
  simp only [retryPending]
  split
  · exact parked t none none
  · rename_i packet _
    have handled : Balances inFlight start held held t
        ((t.park none t.pendingDeadline).handleTunPacket cfg env packet).2 :=
      (parked t none t.pendingDeadline).trans (handleTunPacket_balances accounts _ packet)
    split
    · rename_i mid outcome
      rw [outcome] at handled
      exact handled.trans (parked mid _ none)
    · rename_i mid outcome
      rw [outcome] at handled
      exact (handled.trans (parked mid _ none)).trans (parkIfPaced_balances _ packet)

end Operations

/-! ## Resolving -/

/-- The packets that a reconciliation resolves, oldest first. -/
def resolvedNow (cfg : Config σ) (env : Env) (t : Tunnel σ) :
    List (UInt32 × Bool × SentPacket) :=
  (t.sentPackets.entries.filterMap fun e =>
    (t.resolve cfg env e.1 e.2).map fun acked => (e.1, acked, e.2)).insertionSort
    fun a b => a.2.2.sentAt ≤ b.2.2.sentAt

/-- The table without what is resolved. -/
def stillOpen (cfg : Config σ) (env : Env) (t : Tunnel σ) : Table UInt32 SentPacket :=
  (t.resolvedNow cfg env).foldl (fun sent r => sent.erase r.1) t.sentPackets

theorem mem_resolvedNow {r : UInt32 × Bool × SentPacket} : r ∈ t.resolvedNow cfg env ↔
    ⟨r.1, r.2.2⟩ ∈ t.sentPackets.entries ∧ t.resolve cfg env r.1 r.2.2 = some r.2.1 := by
  rw [resolvedNow, List.mem_insertionSort, List.mem_filterMap]
  constructor
  · rintro ⟨e, member, resolved⟩
    obtain ⟨acked, found, rfl⟩ := Option.map_eq_some_iff.mp resolved
    exact ⟨member, found⟩
  · rintro ⟨member, found⟩
    exact ⟨_, member, Option.map_eq_some_iff.mpr ⟨_, found, rfl⟩⟩

theorem stillOpen_perm (cfg : Config σ) (env : Env) (t : Tunnel σ) :
    (t.stillOpen cfg env).entries.Perm
      (t.sentPackets.entries.filter fun e => !(t.resolve cfg env e.1 e.2).isSome) := by
  refine (Table.entries_foldl_erase_perm Prod.fst _ _).trans (List.Perm.of_eq ?_)
  refine List.filter_congr fun e member => ?_
  have listed : e.1 ∈ (t.resolvedNow cfg env).map Prod.fst ↔
    (t.resolve cfg env e.1 e.2).isSome = true := by
    rw [List.mem_map, Option.isSome_iff_exists]
    constructor
    · rintro ⟨r, resolved, same⟩
      obtain ⟨old, found⟩ := mem_resolvedNow.mp resolved
      have own := t.sentPackets.nodupKeys.eq_of_fst_eq old member same
      rw [← own]
      exact ⟨_, found⟩
    · rintro ⟨acked, found⟩
      exact ⟨(e.1, acked, e.2), mem_resolvedNow.mpr ⟨member, found⟩, rfl⟩
  rw [decide_not, Bool.not_inj_iff, Bool.eq_iff_iff, decide_eq_true_iff]
  exact listed

theorem filterMap_map_const {α β γ : Type} (f : α → Option β) (g : α → γ) (l : List α) :
    (l.filterMap fun a => (f a).map fun _ => g a) = (l.filter fun a => (f a).isSome).map g := by
  induction l with
  | nil => rfl
  | cons a l ih =>
      cases found : f a with
      | none => simpa [found] using ih
      | some b => simpa [found] using ih

theorem unresolved_perm (cfg : Config σ) (env : Env) (t : Tunnel σ) :
    t.unresolved.Perm ((t.stillOpen cfg env).entries.map (fun e => (e.1, e.2.bytes)) ++
      (t.resolvedNow cfg env).map fun r => (r.1, r.2.2.bytes)) := by
  have resolved : ((t.resolvedNow cfg env).map fun r => (r.1, r.2.2.bytes)).Perm
      ((t.sentPackets.entries.filter fun e => (t.resolve cfg env e.1 e.2).isSome).map fun e =>
        (e.1, e.2.bytes)) := by
    refine ((List.perm_insertionSort _ _).map _).trans (List.Perm.of_eq ?_)
    rw [List.map_filterMap, ← filterMap_map_const]
    simp only [Option.map_map, Function.comp_def]
  have split := (List.filter_append_perm (fun e : Sigma fun _ : UInt32 => SentPacket =>
    (t.resolve cfg env e.1 e.2).isSome) t.sentPackets.entries).map fun e => (e.1, e.2.bytes)
  rw [List.map_append] at split
  refine split.symm.trans (List.perm_append_comm.trans ?_)
  exact ((stillOpen_perm cfg env t).map _).symm.append resolved.symm

/-- What a reconciliation tells the controller. -/
def retire (cfg : Config σ) (env : Env) (congestion : σ) (acked lost : Nat)
    (rtt : Option Duration) : σ :=
  let congestion :=
    if 0 < acked then
      match rtt with
      | some rtt => cfg.congestion.onAckWithRtt env.now congestion acked rtt
      | none => cfg.congestion.onAckBytes env.now congestion acked
    else congestion
  if 0 < lost then cfg.congestion.release congestion lost else congestion

theorem withRetired (cfg : Config σ) (env : Env) (t : Tunnel σ) (acked lost : Nat)
    (rtt : Option Duration) :
    (let t :=
      if 0 < acked then
        match rtt with
        | some rtt =>
            { t with congestion := cfg.congestion.onAckWithRtt env.now t.congestion acked rtt }
        | none => { t with congestion := cfg.congestion.onAckBytes env.now t.congestion acked }
      else t
     if 0 < lost then { t with congestion := cfg.congestion.release t.congestion lost } else t) =
      { t with congestion := retire cfg env t.congestion acked lost rtt } := by
  by_cases anyAcked : 0 < acked
  · by_cases anyLost : 0 < lost
    · cases rtt <;> simp only [retire, anyAcked, anyLost, if_true]
    · cases rtt <;> simp only [retire, anyAcked, anyLost, if_true, if_false]
  · by_cases anyLost : 0 < lost
    · simp only [retire, anyAcked, anyLost, if_true, if_false]
    · simp only [retire, anyAcked, anyLost, if_false]

/-! What a list of resolved packets says: the bytes acknowledged and lost, and a round trip. -/

def ackedBytes (resolved : List (UInt32 × Bool × SentPacket)) : Nat :=
  ((resolved.filter fun r => r.2.1).map fun r => r.2.2.bytes).sum

def lostBytes (resolved : List (UInt32 × Bool × SentPacket)) : Nat :=
  ((resolved.filter fun r => !r.2.1).map fun r => r.2.2.bytes).sum

def roundTrip (env : Env) (resolved : List (UInt32 × Bool × SentPacket)) : Option Duration :=
  (((resolved.filter fun r => r.2.1).map fun r => r.2.2.sentAt).min?.map fun at_ =>
    env.now - at_).filter fun rtt => 0 < rtt ∧ rtt ≤ MAX_RTT_SAMPLE

theorem ackedBytes_add_lostBytes (resolved : List (UInt32 × Bool × SentPacket)) :
    ackedBytes resolved + lostBytes resolved = (resolved.map fun r => r.2.2.bytes).sum := by
  have parts :=
    ((List.filter_append_perm (fun r : UInt32 × Bool × SentPacket => r.2.1) resolved).map fun r =>
    r.2.2.bytes).sum_eq
  rwa [List.map_append, List.sum_append] at parts

theorem roundTrip_le {resolved : List (UInt32 × Bool × SentPacket)} {rtt : Duration}
    (told : roundTrip env resolved = some rtt) : rtt ≤ MAX_RTT_SAMPLE :=
  (decide_eq_true_eq.mp (Option.filter_eq_some_iff.mp told).2).2

/-- The packets that it resolves leave the table and the controller and feed the loss windows. -/
theorem reconcilePeerAcks_resolved (cfg : Config σ) (env : Env) (t : Tunnel σ) {resolved}
    (now : t.resolvedNow cfg env = resolved) : t.reconcilePeerAcks cfg env =
      (0 < ackedBytes resolved && (roundTrip env resolved).isSome,
        resolved.foldl (fun t r => t.noteResolved cfg env r.2.1 r.2.2.kind)
          { t with
            sentPackets := resolved.foldl (fun sent r => sent.erase r.1) t.sentPackets
            resolutions := t.resolutions ++ resolved
            congestion := retire cfg env t.congestion (ackedBytes resolved) (lostBytes resolved)
              (roundTrip env resolved) }) := by
  subst now
  refine Prod.ext rfl ?_
  exact congrArg (fun mid => List.foldl _ mid (t.resolvedNow cfg env)) (withRetired cfg env _ _ _ _)

/-- A reconciliation: the resolved packets leave the table and the controller, which is
    told at most one round trip, and feed the loss windows. -/
theorem reconcilePeerAcks_eq (cfg : Config σ) (env : Env) (t : Tunnel σ) : ∃ acked lost rtt,
    acked + lost = ((t.resolvedNow cfg env).map fun r => r.2.2.bytes).sum ∧
    (∀ sample, rtt = some sample → sample ≤ MAX_RTT_SAMPLE) ∧
    (t.reconcilePeerAcks cfg env).2 =
      (t.resolvedNow cfg env).foldl (fun t r => t.noteResolved cfg env r.2.1 r.2.2.kind)
        { t with
          sentPackets := t.stillOpen cfg env
          resolutions := t.resolutions ++ t.resolvedNow cfg env
          congestion := retire cfg env t.congestion acked lost rtt } :=
  ⟨_, _, _, ackedBytes_add_lostBytes _, fun _ told => roundTrip_le told,
    congrArg Prod.snd (reconcilePeerAcks_resolved cfg env t rfl)⟩

section Resolving

variable (accounts : cfg.congestion.Accounts inFlight)

include accounts

theorem noteResolved_balances (t : Tunnel σ) (acked : Bool) (kind : SentPacketKind) :
    Balances inFlight start held held t (t.noteResolved cfg env acked kind) := by
  have same : ∀ lost total, held ≤ inFlight t.congestion →
      inFlight (cfg.congestion.onLoss env.now t.congestion lost total) + held =
        inFlight t.congestion + held :=
    fun _ _ _ => congrArg (· + held) (accounts.losses _ _ _ _)
  simp only [noteResolved, applyFecParams]
  rcases t.wireLossWindow.record (!acked) LOSS_SAMPLE_PACKETS with ⟨_ | ⟨lost, total⟩, w⟩
  · split
    · split
      · exact .of_same (fun _ => rfl) rfl rfl rfl rfl rfl
      · exact .of_same (fun _ => rfl) rfl rfl rfl rfl rfl
    · exact .of_same (fun _ => rfl) rfl rfl rfl rfl rfl
  · split
    · split
      · exact .of_same (same lost total) rfl rfl rfl rfl rfl
      · exact .of_same (same lost total) rfl rfl rfl rfl rfl
    · exact .of_same (same lost total) rfl rfl rfl rfl rfl

theorem retire_inFlight (congestion : σ) (acked lost : Nat) (rtt : Option Duration) :
    inFlight (retire cfg env congestion acked lost rtt) = inFlight congestion - (acked + lost) := by
  have acks : inFlight (if 0 < acked then
      match rtt with
      | some rtt => cfg.congestion.onAckWithRtt env.now congestion acked rtt
      | none => cfg.congestion.onAckBytes env.now congestion acked
      else congestion) = inFlight congestion - acked := by
    split
    · rename_i positive
      cases rtt with
      | some rtt => exact accounts.acksWithRtt _ _ _ _ positive
      | none => exact accounts.acks _ _ _ positive
    · omega
  simp only [retire]
  split
  · rw [accounts.releases, acks, Nat.sub_sub]
  · rw [acks]
    omega

omit accounts in
/-- Taking the resolved packets off the table and their bytes off the controller keeps
    the two in step. -/
theorem balances_retired {congestion : σ} (retired : inFlight congestion =
      inFlight t.congestion - ((t.resolvedNow cfg env).map fun r => r.2.2.bytes).sum) :
    Balances inFlight start held held t { t with
      sentPackets := t.stillOpen cfg env
      resolutions := t.resolutions ++ t.resolvedNow cfg env
      congestion := congestion } := by
  refine ⟨Nat.le_refl _, fun _ balanced =>
    ⟨?_, balanced.counter, balanced.drawn, balanced.once, ?_⟩⟩
  · have total := ((unresolved_perm cfg env t).map Prod.snd).sum_eq
    rw [List.map_append, List.sum_append, List.map_map, List.map_map] at total
    have before := balanced.inFlight
    rw [recordedBytes, total] at before
    simp only [retired, before, recordedBytes, unresolved, List.map_map, Function.comp_def]
    omega
  · refine balanced.accounted.trans ?_
    simp only [settled, List.map_append]
    refine ((unresolved_perm cfg env t).append_right _).trans ?_
    rw [List.append_assoc]
    exact List.Perm.append_left _ List.perm_append_comm

theorem reconcilePeerAcks_balances (t : Tunnel σ) :
    Balances inFlight start held held t (t.reconcilePeerAcks cfg env).2 := by
  have windows : ∀ (resolved : List (UInt32 × Bool × SentPacket)) (t : Tunnel σ),
      Balances inFlight start held held t
        (resolved.foldl (fun t r => t.noteResolved cfg env r.2.1 r.2.2.kind) t) := by
    intro resolved
    induction resolved with
    | nil => exact .refl
    | cons r resolved ih =>
        exact fun t => (noteResolved_balances accounts t r.2.1 r.2.2.kind).trans (ih _)
  obtain ⟨acked, lost, rtt, total, -, same⟩ := reconcilePeerAcks_eq cfg env t
  rw [same]
  refine Balances.trans (balances_retired ?_) (windows _ _)
  rw [← total]
  exact retire_inFlight accounts t.congestion acked lost rtt

theorem checkRetransmits_balances (t : Tunnel σ) :
    Balances inFlight start held held t (t.checkRetransmits cfg env) :=
  (reconcilePeerAcks_balances accounts t).trans (.of_same (fun _ => rfl) rfl rfl rfl rfl rfl)

theorem observePeerAcks_balances (t : Tunnel σ) (hdr : PacketHeader) :
    Balances inFlight start held held t (t.observePeerAcks cfg env hdr) := by
  have observed : Balances inFlight start held held t
      { t with session := t.session.observeAcks hdr.ackSeq hdr.ackBitmap } :=
    .of_same (fun _ => rfl) rfl rfl rfl rfl rfl
  simp only [observePeerAcks]
  split
  · have reconciled : Balances inFlight start held held t
        (reconcilePeerAcks cfg env
          { t with session := t.session.observeAcks hdr.ackSeq hdr.ackBitmap }).2 :=
      observed.trans (reconcilePeerAcks_balances accounts _)
    refine reconciled.trans ?_
    split
    · exact .of_same (fun _ => rfl) rfl rfl rfl rfl rfl
    · exact .of_same (fun _ => rfl) rfl rfl rfl rfl rfl
  · exact .refl t

/-! ## Receiving -/

omit accounts in
theorem followPeer_balances (t : Tunnel σ) (source : SocketAddr) :
    Balances inFlight start held held t (t.followPeer cfg source) := by
  simp only [followPeer]
  split
  · exact .of_same (fun _ => rfl) rfl rfl rfl rfl rfl
  · exact .refl t

omit accounts in
theorem noteReceived_balances (t : Tunnel σ) (hdr : PacketHeader) :
    Balances inFlight start held held t (t.noteReceived cfg env hdr) := by
  simp only [noteReceived]
  split
  · split
    · refine Balances.trans ?_ (sendPacket_balances _ .ack (by decide) [])
      exact .of_same (fun _ => rfl) rfl rfl rfl rfl rfl
    · exact .of_same (fun _ => rfl) rfl rfl rfl rfl rfl
  · exact .of_same (fun _ => rfl) rfl rfl rfl rfl rfl

theorem handlePong_balances (t : Tunnel σ) (payload : Bytes) :
    Balances inFlight start held held t (t.handlePong cfg env payload) := by
  simp only [handlePong]
  split
  · exact .refl t
  · split
    · exact .of_same (fun _ => congrArg (· + held) (accounts.samples _ _)) rfl rfl rfl rfl rfl
    · exact .refl t

omit accounts in
theorem RxOnly.balances (only : RxOnly t t') : Balances inFlight start held held t t' := by
  obtain ⟨r, counters, rfl⟩ := only
  exact .of_same (fun _ => rfl) rfl rfl rfl rfl rfl

theorem dispatch_balances {hdr : PacketHeader} {payload : Bytes}
    (done : t.dispatch cfg env hdr payload = some t') : Balances inFlight start held held t t' := by
  cases kind : hdr.packetType with
  | data =>
      simp only [dispatch, kind] at done
      exact ((handleData_acts cfg env t kind payload).only t' done).balances
  | fec =>
      simp only [dispatch, kind] at done
      exact ((handleParity_acts cfg env t kind payload).only t' done).balances
  | ping =>
      simp only [dispatch, kind, Option.some.injEq] at done
      rw [← done]
      exact sendPacket_balances t .pong (by decide) payload
  | pong =>
      simp only [dispatch, kind, Option.some.injEq] at done
      rw [← done]
      exact handlePong_balances accounts t payload
  | close =>
      simp only [dispatch, kind, Option.some.injEq] at done
      rw [← done]
      exact .of_same (fun _ => rfl) rfl rfl rfl rfl rfl
  | _ =>
      simp only [dispatch, kind, Option.some.injEq] at done
      rw [← done]
      exact .refl t

theorem acceptPacket_balances {source : SocketAddr} {hdr : PacketHeader} {payload : Bytes}
    (done : t.acceptPacket cfg env source hdr payload = some t') :
    Balances inFlight start held held t t' := by
  have before : Balances inFlight start held held t
      (((t.observePeerAcks cfg env hdr).followPeer cfg source).noteReceived cfg env hdr) :=
    ((observePeerAcks_balances accounts t hdr).trans (followPeer_balances _ source)).trans
      (noteReceived_balances _ hdr)
  have counted : ∀ (mid : Tunnel σ) (session : Session),
    session.nextSeq = mid.session.nextSeq → Balances inFlight start held held mid
    ({ mid with session := session }.countReceived payload) :=
    fun _ _ next => .of_same (fun _ => rfl) next rfl rfl rfl rfl
  simp only [acceptPacket] at done
  generalize (((t.observePeerAcks cfg env hdr).followPeer cfg source).noteReceived cfg env
    hdr) = mid at done before
  have next := Session.receiveReliable_nextSeq mid.session hdr.seq
  split at done
  · split at done
    · rename_i session duplicate
      rw [duplicate] at next
      cases done
      exact before.trans (.of_same (fun _ => rfl) next rfl rfl rfl rfl)
    · rename_i session first
      rw [first] at next
      exact (before.trans (counted mid session next)).trans (dispatch_balances accounts done)
  · exact (before.trans (counted mid mid.session rfl)).trans (dispatch_balances accounts done)

/-! ## Turns and runs -/

omit accounts in
theorem closeAndExit_balances (t : Tunnel σ) (exit : TunnelExit) :
    Balances inFlight start held held t (t.closeAndExit cfg env exit) :=
  (sendControl_balances t .close (by decide) []).trans (.of_same (fun _ => rfl) rfl rfl rfl rfl rfl)

theorem handleEvent_balances {e : Event} (done : t.handleEvent cfg env e = some t') :
    Balances inFlight start held held t t' := by
  cases e with
  | datagram bytes source =>
      obtain ⟨mid, handled, rfl⟩ := Option.map_eq_some_iff.mp done
      have left : Balances inFlight start held held mid
          (if mid.closing then { mid with exit := some .peerClosed } else mid) := by
        split
        · exact .of_same (fun _ => rfl) rfl rfl rfl rfl rfl
        · exact .refl mid
      refine Balances.trans ?_ left
      simp only [handleUdpDatagram] at handled
      cases opened : cfg.openDatagram t.session.id bytes with
      | error e =>
          rw [opened] at handled
          cases handled
          exact .refl t
      | ok packet =>
          rw [opened] at handled
          exact acceptPacket_balances accounts handled
  | stop requested =>
      cases done
      split
      · exact closeAndExit_balances t _
      · exact .refl t
  | tun packet =>
      cases done
      exact onTun_balances accounts t packet
  | pacerRetry =>
      cases done
      split
      · exact retryPending_balances accounts t
      · exact .refl t
  | ping =>
      cases done
      refine Balances.trans ?_ (sendPacket_balances _ .ping (by decide) _)
      exact .of_same (fun _ => rfl) rfl rfl rfl rfl rfl
  | fecTick =>
      cases done
      have flushed : Balances inFlight start held held t (t.flushFecGroupIfStale cfg env) := by
        simp only [flushFecGroupIfStale]
        split
        · exact .refl t
        · exact flushFecGroup_balances accounts t
      exact flushed.trans (.of_same (fun _ => rfl) rfl rfl rfl rfl rfl)
  | rtoTick =>
      cases done
      exact checkRetransmits_balances accounts t
  | ackTick =>
      cases done
      simp only [flushCoalescedAck]
      split
      · refine Balances.trans ?_ (sendPacket_balances _ .ack (by decide) [])
        exact .of_same (fun _ => rfl) rfl rfl rfl rfl rfl
      · exact .refl t
  | keepalive =>
      cases done
      exact sendPacket_balances t .keepalive (by decide) _
  | timeoutCheck =>
      cases done
      split
      · exact closeAndExit_balances t _
      · exact .refl t
  | evict =>
      cases done
      exact closeAndExit_balances t _
  | tunError =>
      cases done
      exact .of_same (fun _ => rfl) rfl rfl rfl rfl rfl
  | udpClosed =>
      cases done
      exact .of_same (fun _ => rfl) rfl rfl rfl rfl rfl

theorem step_balances {turn : Env × Event} (stepped : step cfg t turn = some t') :
    Balances inFlight start held held t t' := by
  cases exited : t.exit with
  | some exit =>
      rw [step_exited turn (by rw [exited]; rfl)] at stepped
      cases stepped
      exact .refl t
  | none =>
      rw [step_running turn exited] at stepped
      exact handleEvent_balances accounts stepped

theorem run_balances {turns : List (Env × Event)} (ran : run cfg t turns = some t') :
    Balances inFlight start held held t t' := by
  induction turns generalizing t with
  | nil =>
      cases ran
      exact .refl _
  | cons turn turns ih =>
      obtain ⟨mid, stepped, rest⟩ := Runs.run_cons_eq_some.mp ran
      exact (step_balances accounts stepped).trans (ih rest)

end Resolving

theorem reconcilePeerAcks_sentPackets (cfg : Config σ) (env : Env) (t : Tunnel σ) :
    (t.reconcilePeerAcks cfg env).2.sentPackets = t.stillOpen cfg env := by
  have windows : ∀ (resolved : List (UInt32 × Bool × SentPacket)) (t : Tunnel σ),
      (resolved.foldl (fun t r => t.noteResolved cfg env r.2.1 r.2.2.kind) t).sentPackets =
        t.sentPackets := by
    intro resolved
    induction resolved with
    | nil => exact fun _ => rfl
    | cons r resolved ih =>
        intro t
        rw [List.foldl_cons, ih]
        simp only [noteResolved, applyFecParams]
        split <;> split <;> (try split) <;> rfl
  obtain ⟨acked, lost, rtt, -, -, same⟩ := reconcilePeerAcks_eq cfg env t
  rw [same, windows]

theorem stillOpen_young {e : Sigma fun _ : UInt32 => SentPacket}
    (member : e ∈ (t.stillOpen cfg env).entries) :
    env.now - e.2.sentAt < max (cfg.congestion.rto t.congestion) MIN_SENT_PACKET_LIFETIME := by
  have kept := (stillOpen_perm cfg env t).mem_iff.mp member
  rw [List.mem_filter, Bool.not_eq_true', Option.isSome_eq_false_iff,
    Option.isNone_iff_eq_none] at kept
  simp only [resolve] at kept
  by_contra old
  cases acked : t.session.peerAcked e.1 with
  | false => simp [acked, Nat.le_of_not_lt old] at kept
  | true => simp [acked] at kept

/-! ## `tcp-reno` -/

section Reno

variable {F : Type} {f64 : Floating F} {cfg : Config (CongestionController F)}
  {t : Tunnel (CongestionController F)}

/-- A tunnel as it enters its loop, with the controller at the device's MTU. -/
def renoStart (f64 : Floating F) (cfg : Config (CongestionController F)) (fec : FecConfig)
    (peer : SocketAddr) (session : Session) (mtu : UInt32) (now : Instant) :
    Tunnel (CongestionController F) :=
  (Tunnel.fromHandshake peer session ((CongestionController.new f64).setMtu mtu) now).configureFec
    cfg fec

theorem configureFec_balanced {σ : Type} {cfg : Config σ} {t : Tunnel σ} {inFlight : σ → Nat}
    {start : UInt32} (fec : FecConfig) (balanced : t.Balanced inFlight start 0) :
    (t.configureFec cfg fec).Balanced inFlight start 0 := by
  obtain ⟨adaptive, params, same⟩ := t.configureFec_eq cfg fec
  rw [same]
  exact ⟨balanced.inFlight, balanced.counter, balanced.drawn, balanced.once, balanced.accounted⟩

theorem renoStart_balanced (f64 : Floating F) (cfg : Config (CongestionController F))
    (fec : FecConfig) (peer : SocketAddr) (session : Session) (mtu : UInt32) (now : Instant) :
    (renoStart f64 cfg fec peer session mtu now).Balanced CongestionController.inFlight
    session.nextSeq 0 := by
  refine configureFec_balanced fec ⟨?_, (UInt32.add_zero _).symm, nofun, List.nodup_nil, .nil⟩
  simp only [fromHandshake, CongestionController.setMtu]
  split
  · rfl
  · rfl

/-- In every state that a run of a tunnel with `tcp-reno` reaches on fewer than `2^32`
    sequence numbers, the controller has in flight exactly the bytes recorded in
    `sent_packets`; the packets recorded so far, each under a number of its own, are the
    unresolved ones and the resolved ones, each once; and the next reconciliation resolves
    every packet that is older than the timeout. -/
theorem inFlight_eq_recordedBytes (reno : cfg.congestion = tcpReno f64) {fec : FecConfig}
    {peer : SocketAddr} {session : Session} {mtu : UInt32} {now : Instant}
    {turns : List (Env × Event)}
    (ran : run cfg (renoStart f64 cfg fec peer session mtu now) turns = some t)
    (few : t.seals.length < 2 ^ 32) :
    t.congestion.inFlight = t.recordedBytes ∧
    (t.recorded.map Prod.fst).Nodup ∧
    t.recorded.Perm (t.unresolved ++ t.settled) ∧
    ∀ env, ∀ e ∈ (t.reconcilePeerAcks cfg env).2.sentPackets.entries,
      env.now - e.2.sentAt < max t.congestion.rto MIN_SENT_PACKET_LIFETIME := by
  have accounts : cfg.congestion.Accounts CongestionController.inFlight :=
    reno ▸ tcpReno_accounts f64
  have balanced :=
    (run_balances accounts ran).keeps few (renoStart_balanced f64 cfg fec peer session mtu now)
  refine ⟨balanced.inFlight, balanced.once, balanced.accounted, fun env e member => ?_⟩
  rw [reconcilePeerAcks_sentPackets] at member
  have young := stillOpen_young member
  rwa [reno] at young

/-- One end of a session over plain UDP, with `tcp-reno`. -/
def sampleRenoConfig : Config (CongestionController ℚ) where
  aead := sampleAead
  sendKey := []
  recvKey := []
  sendDir := .initiatorToResponder
  recvDir := .responderToInitiator
  codec := .v1Fixed
  transport := .plain
  obfuscation := []
  fec := .reedSolomon
  congestion := tcpReno Floating.exact
  supportsRoaming := true
  signalsRoaming := true
  sessionTimeout := SESSION_TIMEOUT

/-- A packet with its parity is sent and times out, and a second one is sent after it. -/
def lossyTurns : List (Env × Event) :=
  [(sampleEnv 0 0, .tun [1, 2, 3]), (sampleEnv 1000000000 0, .rtoTick),
    (sampleEnv 2000000000 0, .tun [4])]

/-- After a loss the table holds the second packet and its parity, and the controller
    their bytes. -/
theorem lossyTurns_balanced : ∃ t,
    run sampleRenoConfig (renoStart Floating.exact sampleRenoConfig ⟨1, 1, 1, 1⟩ (sampleAddr 1)
      (.new 7 .initiator) 1400 0) lossyTurns = some t ∧
    t.resolutions.length = 2 ∧ t.congestion.inFlight = 2 ∧
    t.congestion.inFlight = t.recordedBytes := by
  have evaluated :
    (run sampleRenoConfig (renoStart Floating.exact sampleRenoConfig ⟨1, 1, 1, 1⟩ (sampleAddr 1)
    (.new 7 .initiator) 1400 0) lossyTurns).any (fun t =>
        decide (t.seals.length < 2 ^ 32) && t.resolutions.length == 2 && t.congestion.inFlight ==
          2) = true := by
    decide +kernel
  obtain ⟨t, ran, checked⟩ := (Option.any_eq_true _ _).mp evaluated
  simp only [Bool.and_eq_true, decide_eq_true_eq, beq_iff_eq] at checked
  obtain ⟨⟨few, resolved⟩, reserved⟩ := checked
  exact ⟨t, ran, resolved, reserved, (inFlight_eq_recordedBytes rfl ran few).1⟩

end Reno

end Tunnel

end Rustnies
