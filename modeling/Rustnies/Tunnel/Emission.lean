import Rustnies.Protocol.FrameLaws
import Rustnies.Tunnel.Loop

/-! # What the tunnel's operations do to the outside

Every operation of the tunnel is described by three relations between the state
before and after it. `Emits` says which packets were sealed and sent, and that
each seal took the next sequence number. `SameRx` says that the receive side was
not touched, and `SameGroup` that the FEC group being filled was not. The results
about whole runs use these descriptions and not the operations.
-/

namespace Rustnies

variable {σ : Type}

/-- A packet of an FEC group: data or parity. -/
def Sent.IsFec (s : Sent) : Prop := s.hdr.packetType = .data ∨ s.hdr.packetType = .fec

/-- The datagram is the payload sealed under its header, and the send paths of FEC
    packets checked its length. -/
structure Sealed (cfg : Config σ) (sid : SessionId) (s : Sent) : Prop where
  current : s.hdr.Current
  cipher : ∃ ciphertext,
    cfg.aead.encrypt cfg.sendKey (makeNonce sid s.hdr.seq cfg.sendDir)
      (cfg.codec.encodeHeader s.hdr) s.payload = some ciphertext ∧
    s.wire = cfg.wrapFrame (cfg.codec.encodeFrame s.hdr ciphertext)
  fits : s.IsFec → s.wire.length + OUTER_OVERHEAD ≤ PATH_MTU

namespace Tunnel

variable {cfg : Config σ} {env : Env} {t t' t'' : Tunnel σ}

/-- The seals made between two states: one sequence number each, in order. -/
def SealsBetween (cfg : Config σ) (t t' : Tunnel σ) (calls : List SealCall) : Prop :=
  t'.seals = t.seals ++ calls ∧
  t'.session.nextSeq = t.session.nextSeq + UInt32.ofNat calls.length ∧
  ∀ i c, calls[i]? = some c →
    c.nonce = makeNonce t.session.id (t.session.nextSeq + UInt32.ofNat i) cfg.sendDir

structure Emits (cfg : Config σ) (t : Tunnel σ) (packets : List Sent) (t' : Tunnel σ) :
    Prop where
  id : t'.session.id = t.session.id
  seals : ∃ calls, SealsBetween cfg t t' calls
  sent : t'.sent = t.sent ++ packets
  all : ∀ s ∈ packets, Sealed cfg t.session.id s
  own : ∀ s ∈ packets, s.hdr.sessionId = t.session.id

structure SameRx (t t' : Tunnel σ) : Prop where
  rxGroups : t'.rxGroups = t.rxGroups
  tunWrites : t'.tunWrites = t.tunWrites
  peer : t'.peer = t.peer
  roamSignals : t'.roamSignals = t.roamSignals
  closing : t'.closing = t.closing
  exit : t'.exit = t.exit

structure SameGroup (t t' : Tunnel σ) : Prop where
  groupId : t'.groupId = t.groupId
  groupIndex : t'.groupIndex = t.groupIndex
  groupBuffer : t'.groupBuffer = t.groupBuffer

theorem SealsBetween.trans {calls calls' : List SealCall} (same : t'.session.id = t.session.id)
    (first : SealsBetween cfg t t' calls) (second : SealsBetween cfg t' t'' calls') :
    SealsBetween cfg t t'' (calls ++ calls') := by
  obtain ⟨sealed, counter, nonces⟩ := first
  obtain ⟨sealed', counter', nonces'⟩ := second
  refine ⟨by rw [sealed', sealed, List.append_assoc], ?_, ?_⟩
  · rw [counter', counter, List.length_append, UInt32.ofNat_add, UInt32.add_assoc]
  · intro i c found
    rcases Nat.lt_or_ge i calls.length with left | right
    · exact nonces i c ((List.getElem?_append_left left).symm.trans found)
    · rw [List.getElem?_append_right right] at found
      rw [nonces' _ c found, same, counter, UInt32.add_assoc, ← UInt32.ofNat_add,
        Nat.add_sub_cancel' right]

namespace Emits

theorem trans {packets packets' : List Sent} (first : Emits cfg t packets t')
    (second : Emits cfg t' packets' t'') : Emits cfg t (packets ++ packets') t'' where
  id := second.id.trans first.id
  seals := by
    obtain ⟨calls, between⟩ := first.seals
    obtain ⟨calls', between'⟩ := second.seals
    exact ⟨calls ++ calls', between.trans first.id between'⟩
  sent := by rw [second.sent, first.sent, List.append_assoc]
  all := fun s member => by
    rcases List.mem_append.mp member with left | right
    · exact first.all s left
    · exact first.id ▸ second.all s right
  own := fun s member => by
    rcases List.mem_append.mp member with left | right
    · exact first.own s left
    · exact (second.own s right).trans first.id

theorem of_same (id : t'.session.id = t.session.id) (next : t'.session.nextSeq = t.session.nextSeq)
    (seals : t'.seals = t.seals) (sent : t'.sent = t.sent) : Emits cfg t [] t' := by
  refine ⟨id, ⟨[], ?_, ?_, fun i c found => by simp at found⟩, ?_,
    fun _ member => absurd member List.not_mem_nil,
    fun _ member => absurd member List.not_mem_nil⟩
  · rw [seals, List.append_nil]
  · rw [next]
    exact (UInt32.add_zero _).symm
  · rw [sent, List.append_nil]

theorem refl (t : Tunnel σ) : Emits cfg t [] t := of_same rfl rfl rfl rfl

end Emits

theorem SameRx.refl (t : Tunnel σ) : SameRx t t := ⟨rfl, rfl, rfl, rfl, rfl, rfl⟩

theorem SameRx.trans (first : SameRx t t') (second : SameRx t' t'') : SameRx t t'' where
  rxGroups := second.rxGroups.trans first.rxGroups
  tunWrites := second.tunWrites.trans first.tunWrites
  peer := second.peer.trans first.peer
  roamSignals := second.roamSignals.trans first.roamSignals
  closing := second.closing.trans first.closing
  exit := second.exit.trans first.exit

theorem SameGroup.refl (t : Tunnel σ) : SameGroup t t := ⟨rfl, rfl, rfl⟩

theorem SameGroup.trans (first : SameGroup t t') (second : SameGroup t' t'') : SameGroup t t'' where
  groupId := second.groupId.trans first.groupId
  groupIndex := second.groupIndex.trans first.groupIndex
  groupBuffer := second.groupBuffer.trans first.groupBuffer

/-! ## One seal -/

/-- What `nextHeader` and `sealPacket` do together: one seal, under the next sequence
    number. -/
structure Seals (cfg : Config σ) (t : Tunnel σ) (hdr : PacketHeader) (payload : Bytes)
    (wire : Option Bytes) (t' : Tunnel σ) : Prop where
  emits : Emits cfg t [] t'
  rx : SameRx t t'
  group : SameGroup t t'
  fecParams : t'.fecParams = t.fecParams
  own : hdr.sessionId = t.session.id
  cipher : ∀ w, wire = some w → ∃ ciphertext,
    cfg.aead.encrypt cfg.sendKey (makeNonce t.session.id hdr.seq cfg.sendDir)
      (cfg.codec.encodeHeader hdr) payload = some ciphertext ∧
    w = cfg.wrapFrame (cfg.codec.encodeFrame hdr ciphertext)

theorem seals_of_sealPacket {ptype : PacketType} {hdr : PacketHeader} {payload : Bytes}
    {wire : Option Bytes} (seq : hdr.seq = t.session.nextSeq) (own : hdr.sessionId = t.session.id)
    (made : (t.nextHeader ptype).2.sealPacket cfg hdr payload = (wire, t')) :
    Seals cfg t hdr payload wire t' := by
  cases made
  refine ⟨⟨rfl, ?_, (List.append_nil _).symm, fun s member => absurd member List.not_mem_nil,
      fun s member => absurd member List.not_mem_nil⟩,
    ⟨rfl, rfl, rfl, rfl, rfl, rfl⟩, ⟨rfl, rfl, rfl⟩, rfl, own, ?_⟩
  · refine ⟨[⟨makeNonce t.session.id hdr.seq cfg.sendDir, cfg.codec.encodeHeader hdr,
      payload⟩], rfl, rfl, ?_⟩
    intro i c found
    cases i with
    | zero =>
        cases found
        rw [seq]
        exact congrArg (makeNonce t.session.id · cfg.sendDir) (UInt32.add_zero _).symm
    | succ i => simp at found
  · intro w done
    obtain ⟨ciphertext, encrypted, rfl⟩ := Option.map_eq_some_iff.mp done
    exact ⟨ciphertext, encrypted, rfl⟩

theorem Seals.record {hdr : PacketHeader} {payload wire : Bytes}
    (seals : Seals cfg t hdr payload (some wire) t') (current : hdr.Current)
    (fits : hdr.packetType = .data ∨ hdr.packetType = .fec → wire.length +
      OUTER_OVERHEAD ≤ PATH_MTU) :
    Emits cfg t [{ hdr := hdr, payload := payload, wire := wire, dest := t.peer }]
      (t'.recordSent hdr payload wire) where
  id := seals.emits.id
  seals := seals.emits.seals
  sent := by
    rw [recordSent, seals.emits.sent, List.append_nil, seals.rx.peer]
  all := fun s member => by
    obtain rfl := List.mem_singleton.mp member
    exact ⟨current, seals.cipher wire rfl, fits⟩
  own := fun s member => by
    obtain rfl := List.mem_singleton.mp member
    exact seals.own

/-! ## Control packets -/

/-- Only control packets were sent, and the group being filled was not touched. -/
structure Signals (cfg : Config σ) (t t' : Tunnel σ) : Prop where
  emits : ∃ packets, Emits cfg t packets t' ∧ ∀ s ∈ packets, ¬ s.IsFec
  group : SameGroup t t'

/-- Only control packets were sent, and the receive side was not touched either. -/
structure Controls (cfg : Config σ) (t t' : Tunnel σ) : Prop extends Signals cfg t t' where
  rx : SameRx t t'

theorem Signals.trans (first : Signals cfg t t') (second : Signals cfg t' t'') :
    Signals cfg t t'' where
  emits := by
    obtain ⟨packets, emits, control⟩ := first.emits
    obtain ⟨packets', emits', control'⟩ := second.emits
    refine ⟨packets ++ packets', emits.trans emits', fun s member => ?_⟩
    rcases List.mem_append.mp member with left | right
    · exact control s left
    · exact control' s right
  group := first.group.trans second.group

theorem Signals.of_same (id : t'.session.id = t.session.id)
    (next : t'.session.nextSeq = t.session.nextSeq) (seals : t'.seals = t.seals)
    (sent : t'.sent = t.sent) (group : SameGroup t t') : Signals cfg t t' :=
  ⟨⟨[], .of_same id next seals sent, fun _ member => absurd member List.not_mem_nil⟩, group⟩

namespace Controls

theorem trans (first : Controls cfg t t') (second : Controls cfg t' t'') : Controls cfg t t'' :=
  ⟨first.toSignals.trans second.toSignals, first.rx.trans second.rx⟩

theorem of_same (id : t'.session.id = t.session.id)
    (next : t'.session.nextSeq = t.session.nextSeq) (seals : t'.seals = t.seals)
    (sent : t'.sent = t.sent) (rx : SameRx t t') (group : SameGroup t t') : Controls cfg t t' :=
  ⟨.of_same id next seals sent group, rx⟩

theorem refl (t : Tunnel σ) : Controls cfg t t := of_same rfl rfl rfl rfl (.refl t) (.refl t)

end Controls

theorem Seals.unsent {hdr : PacketHeader} {payload : Bytes} {wire : Option Bytes}
    (seals : Seals cfg t hdr payload wire t') : Controls cfg t t' :=
  ⟨⟨⟨[], seals.emits, fun _ member => absurd member List.not_mem_nil⟩, seals.group⟩,
    seals.rx⟩

theorem Seals.control {hdr : PacketHeader} {payload wire : Bytes}
    (seals : Seals cfg t hdr payload (some wire) t') (current : hdr.Current)
    (control : ¬ (hdr.packetType = .data ∨ hdr.packetType = .fec)) :
    Controls cfg t (t'.recordSent hdr payload wire) where
  emits := by
    refine ⟨_, seals.record current fun fec => absurd fec control, fun _ member => ?_⟩
    obtain rfl := List.mem_singleton.mp member
    exact control
  rx := seals.rx.trans ⟨rfl, rfl, rfl, rfl, rfl, rfl⟩
  group := seals.group.trans ⟨rfl, rfl, rfl⟩

theorem sendPacket_controls (t : Tunnel σ) (ptype : PacketType)
    (control : ¬ (ptype = .data ∨ ptype = .fec)) (payload : Bytes) :
    Controls cfg t (t.sendPacket cfg env ptype payload) := by
  simp only [sendPacket]
  rcases made : sealPacket cfg (t.nextHeader ptype).2 (t.nextHeader ptype).1 payload
    with ⟨_ | wire, mid⟩
  · exact (seals_of_sealPacket rfl rfl made).unsent
  · have seals := seals_of_sealPacket rfl rfl made
    simp only
    split
    · exact seals.control ⟨rfl, rfl⟩ control
    · exact seals.unsent

theorem sendControl_controls (cfg : Config σ) (env : Env) (t : Tunnel σ) (ptype : PacketType)
    (control : ¬ (ptype = .data ∨ ptype = .fec)) (payload : Bytes) :
    Controls cfg t (t.sendControl cfg env ptype payload) := by
  simp only [sendControl]
  rcases made : sealPacket cfg (t.nextHeader ptype).2 (t.nextHeader ptype).1 payload
    with ⟨_ | wire, mid⟩
  · exact (seals_of_sealPacket rfl rfl made).unsent
  · have seals := seals_of_sealPacket rfl rfl made
    simp only
    split
    · have sent : Controls cfg t (mid.recordSent (t.nextHeader ptype).1 payload wire) :=
        seals.control ⟨rfl, rfl⟩ control
      split
      · exact sent.trans
          (.of_same rfl rfl rfl rfl ⟨rfl, rfl, rfl, rfl, rfl, rfl⟩ ⟨rfl, rfl, rfl⟩)
      · exact sent
    · exact seals.unsent

theorem flushCoalescedAck_controls (t : Tunnel σ) :
    Controls cfg t (t.flushCoalescedAck cfg env) := by
  unfold flushCoalescedAck
  split
  · refine Controls.trans ?_ (sendPacket_controls _ .ack (by decide) [])
    exact .of_same rfl rfl rfl rfl ⟨rfl, rfl, rfl, rfl, rfl, rfl⟩ ⟨rfl, rfl, rfl⟩
  · exact .refl t

theorem sendPing_controls (t : Tunnel σ) : Controls cfg t (t.sendPing cfg env) := by
  refine Controls.trans ?_ (sendPacket_controls _ .ping (by decide) _)
  exact .of_same rfl rfl rfl rfl ⟨rfl, rfl, rfl, rfl, rfl, rfl⟩ ⟨rfl, rfl, rfl⟩

theorem sendKeepalive_controls (t : Tunnel σ) : Controls cfg t (t.sendKeepalive cfg env) :=
  sendPacket_controls _ .keepalive (by decide) _

/-! ## Acknowledgements -/

theorem noteResolved_controls (t : Tunnel σ) (acked : Bool) (kind : SentPacketKind) :
    Controls cfg t (t.noteResolved cfg env acked kind) := by
  simp only [noteResolved, applyFecParams]
  split <;> split <;> (try split) <;>
    exact .of_same rfl rfl rfl rfl ⟨rfl, rfl, rfl, rfl, rfl, rfl⟩ ⟨rfl, rfl, rfl⟩

theorem reconcilePeerAcks_controls (cfg : Config σ) (env : Env) (t : Tunnel σ) :
    Controls cfg t (t.reconcilePeerAcks cfg env).2 := by
  have windows : ∀ (resolved : List (UInt32 × Bool × SentPacket)) (t : Tunnel σ),
    Controls cfg t (resolved.foldl (fun t r => t.noteResolved cfg env r.2.1 r.2.2.kind) t) := by
    intro resolved
    induction resolved with
    | nil => exact .refl
    | cons r resolved ih => exact fun t => (noteResolved_controls t r.2.1 r.2.2.kind).trans (ih _)
  simp only [reconcilePeerAcks]
  refine Controls.trans ?_ (windows _ _)
  split <;> split <;> (try split) <;>
    exact .of_same rfl rfl rfl rfl ⟨rfl, rfl, rfl, rfl, rfl, rfl⟩ ⟨rfl, rfl, rfl⟩

theorem checkRetransmits_controls (t : Tunnel σ) : Controls cfg t (t.checkRetransmits cfg env) :=
  (reconcilePeerAcks_controls cfg env t).trans
    (.of_same rfl rfl rfl rfl ⟨rfl, rfl, rfl, rfl, rfl, rfl⟩ ⟨rfl, rfl, rfl⟩)

/-! ## Data and parity -/

end Tunnel

/-- What the receiver learns from a packet of a group. -/
structure FecPacket where
  packetType : PacketType
  group : UInt16
  index : UInt8
  k : UInt8
  m : UInt8
  payload : Bytes
  deriving DecidableEq

def Sent.fecPacket (s : Sent) : FecPacket where
  packetType := s.hdr.packetType
  group := s.hdr.fecGroup
  index := s.hdr.fecIndex
  k := s.hdr.fecK
  m := s.hdr.fecM
  payload := s.payload

/-- The data packet that `handle_tun_packet` makes. -/
def dataPacket (params : FecParams) (group : UInt16) (index : UInt8) (payload : Bytes) :
    FecPacket :=
  ⟨.data, group, index, params.k, params.m, payload⟩

/-- The parity packets of a buffered group, if `flush_fec_group` makes any. -/
def parityPackets (scheme : FecScheme) (params : FecParams) (group : UInt16) (buffer : List Bytes) :
    List FecPacket :=
  if params.m.toNat = 0 ∨ buffer.length < params.k.toNat then []
  else
    match scheme.encode params.k.toNat params.m.toNat
        (buffer.map (Tunnel.padTo ((buffer.map List.length).foldl max 0))) with
    | .error _ => []
    | .ok parities => parities.zipIdx.map fun p =>
        ⟨.fec, group, UInt8.ofNat params.k.toNat + UInt8.ofNat p.2, params.k, params.m, p.1⟩

namespace Tunnel

variable {cfg : Config σ} {env : Env} {t t' t'' : Tunnel σ}

/-- A send that leaves the receive side and the parameters alone. -/
structure Sends (cfg : Config σ) (t : Tunnel σ) (packets : List Sent) (t' : Tunnel σ) :
    Prop where
  emits : Emits cfg t packets t'
  rx : SameRx t t'
  fecParams : t'.fecParams = t.fecParams

theorem Sends.trans {packets packets' : List Sent} (first : Sends cfg t packets t')
    (second : Sends cfg t' packets' t'') : Sends cfg t (packets ++ packets') t'' :=
  ⟨first.emits.trans second.emits, first.rx.trans second.rx,
    second.fecParams.trans first.fecParams⟩

theorem Sends.of_same (id : t'.session.id = t.session.id)
    (next : t'.session.nextSeq = t.session.nextSeq) (seals : t'.seals = t.seals)
    (sent : t'.sent = t.sent) (rx : SameRx t t') (fecParams : t'.fecParams = t.fecParams) :
    Sends cfg t [] t' :=
  ⟨.of_same id next seals sent, rx, fecParams⟩

theorem Seals.sends {hdr : PacketHeader} {payload : Bytes} {wire : Option Bytes}
    (seals : Seals cfg t hdr payload wire t') : Sends cfg t [] t' :=
  ⟨seals.emits, seals.rx, seals.fecParams⟩

theorem Seals.transmitted {hdr : PacketHeader} {payload wire : Bytes}
    (seals : Seals cfg t hdr payload (some wire) t') (current : hdr.Current)
    (fits : ¬ PATH_MTU < wire.length + OUTER_OVERHEAD) (env : Env) (len : Nat)
    (kind : SentPacketKind) :
    Sends cfg t [{ hdr := hdr, payload := payload, wire := wire, dest := t.peer }]
      (t'.noteTransmitted env hdr payload wire len kind) where
  emits := (seals.record current fun _ => Nat.le_of_not_lt fits).trans (.of_same rfl rfl rfl rfl)
  rx := seals.rx.trans ⟨rfl, rfl, rfl, rfl, rfl, rfl⟩
  fecParams := seals.fecParams

theorem sendParity_sends (cfg : Config σ) (env : Env) (k : Nat) (group : UInt16) (t : Tunnel σ)
    (parity : Bytes) (i : Nat) :
    ∃ packets, Sends cfg t packets (t.sendParity cfg env k group parity i) ∧
      SameGroup t (t.sendParity cfg env k group parity i) ∧
      List.Sublist (packets.map Sent.fecPacket)
        [⟨.fec, group, UInt8.ofNat k + UInt8.ofNat i, t.fecParams.k, t.fecParams.m, parity⟩] :=
        by
  simp only [sendParity]
  split
  · exact ⟨[], .of_same rfl rfl rfl rfl ⟨rfl, rfl, rfl, rfl, rfl, rfl⟩ rfl,
      ⟨rfl, rfl, rfl⟩, List.nil_sublist _⟩
  · have start : Sends cfg t [] { t with congestion := (cfg.congestion.trySendParity env.now
        t.congestion (max parity.length 1)).2 } :=
      .of_same rfl rfl rfl rfl ⟨rfl, rfl, rfl, rfl, rfl, rfl⟩ rfl
    split
    · rename_i mid made
      have seals := seals_of_sealPacket rfl rfl made
      refine ⟨[], (start.trans seals.sends).trans ?_,
        ⟨seals.group.groupId, seals.group.groupIndex, seals.group.groupBuffer⟩,
        List.nil_sublist _⟩
      exact .of_same rfl rfl rfl rfl ⟨rfl, rfl, rfl, rfl, rfl, rfl⟩ rfl
    · rename_i wire mid made
      have seals := seals_of_sealPacket rfl rfl made
      split
      · refine ⟨[], (start.trans seals.sends).trans ?_,
          ⟨seals.group.groupId, seals.group.groupIndex, seals.group.groupBuffer⟩,
          List.nil_sublist _⟩
        exact .of_same rfl rfl rfl rfl ⟨rfl, rfl, rfl, rfl, rfl, rfl⟩ rfl
      · rename_i small
        split
        · exact ⟨_, start.trans (seals.transmitted ⟨rfl, rfl⟩ small env _ _),
            ⟨seals.group.groupId, seals.group.groupIndex, seals.group.groupBuffer⟩, .refl _⟩
        · refine ⟨[], (start.trans seals.sends).trans ?_,
            ⟨seals.group.groupId, seals.group.groupIndex, seals.group.groupBuffer⟩,
            List.nil_sublist _⟩
          exact .of_same rfl rfl rfl rfl ⟨rfl, rfl, rfl, rfl, rfl, rfl⟩ rfl

theorem sendParities_sends (cfg : Config σ) (env : Env) (k : Nat) (group : UInt16)
    (parities : List (Bytes × Nat)) (t : Tunnel σ) :
    ∃ packets,
      Sends cfg t packets (parities.foldl (fun t p => t.sendParity cfg env k group p.1 p.2) t) ∧
      SameGroup t (parities.foldl (fun t p => t.sendParity cfg env k group p.1 p.2) t) ∧
      List.Sublist (packets.map Sent.fecPacket) (parities.map fun p =>
        ⟨.fec, group, UInt8.ofNat k + UInt8.ofNat p.2, t.fecParams.k, t.fecParams.m, p.1⟩) := by
  induction parities generalizing t with
  | nil => exact ⟨[], ⟨.refl t, .refl t, rfl⟩, .refl t, .refl _⟩
  | cons p parities ih =>
      obtain ⟨packets, sends, same, named⟩ := sendParity_sends cfg env k group t p.1 p.2
      obtain ⟨packets', sends', same', named'⟩ := ih (t.sendParity cfg env k group p.1 p.2)
      refine ⟨packets ++ packets', sends.trans sends', same.trans same', ?_⟩
      rw [sends.fecParams] at named'
      rw [List.map_append, List.map_cons]
      exact named.append named'

/-- Flushing a group that has packets: the next group opens empty, and what was sent
    is parity of the old one. -/
theorem flushFecGroup_sends (cfg : Config σ) (env : Env) (nonempty : t.groupBuffer ≠ []) :
    ∃ packets, Sends cfg t packets (t.flushFecGroup cfg env) ∧
      (t.flushFecGroup cfg env).groupId = t.groupId + 1 ∧
      (t.flushFecGroup cfg env).groupIndex = 0 ∧
      (t.flushFecGroup cfg env).groupBuffer = [] ∧
      List.Sublist (packets.map Sent.fecPacket)
        (parityPackets cfg.fec t.fecParams t.groupId t.groupBuffer) := by
  have start : Sends cfg t [] { t with groupBuffer := [], groupIndex := 0, groupId :=
    t.groupId + 1 } :=
    .of_same rfl rfl rfl rfl ⟨rfl, rfl, rfl, rfl, rfl, rfl⟩ rfl
  rw [flushFecGroup, if_neg (by simpa using nonempty)]
  simp only [parityPackets]
  split
  · exact ⟨[], start, rfl, rfl, rfl, List.nil_sublist _⟩
  · cases cfg.fec.encode t.fecParams.k.toNat t.fecParams.m.toNat
      (t.groupBuffer.map (padTo ((t.groupBuffer.map List.length).foldl max 0))) with
    | error e => exact ⟨[], start, rfl, rfl, rfl, List.nil_sublist _⟩
    | ok parities =>
        obtain ⟨packets, sends, same, named⟩ :=
          sendParities_sends cfg env t.fecParams.k.toNat t.groupId parities.zipIdx
          { t with groupBuffer := [], groupIndex := 0, groupId := t.groupId + 1 }
        exact ⟨packets, start.trans sends, same.groupId, same.groupIndex,
          same.groupBuffer, named⟩

/-- How one operation moves the group being filled. -/
inductive GroupStep (cfg : Config σ) (t : Tunnel σ) : List Sent → Tunnel σ → Prop where
  /-- No packet of a group was sent. -/
  | idle {packets : List Sent} {t' : Tunnel σ} (control : ∀ s ∈ packets, ¬ s.IsFec)
      (same : SameGroup t t') : GroupStep cfg t packets t'
  /-- A data packet went into the group, which stays open. -/
  | data {s : Sent} {t' : Tunnel σ}
      (packet : s.fecPacket = dataPacket t.fecParams t.groupId t.groupIndex s.payload)
      (room : t.groupIndex + 1 < t.fecParams.k)
      (groupId : t'.groupId = t.groupId)
      (groupIndex : t'.groupIndex = t.groupIndex + 1)
      (groupBuffer : t'.groupBuffer = t.groupBuffer ++ [s.payload]) : GroupStep cfg t [s] t'
  /-- A data packet filled the group, which was flushed. -/
  | fill {s : Sent} {parities : List Sent} {t' : Tunnel σ}
      (packet : s.fecPacket = dataPacket t.fecParams t.groupId t.groupIndex s.payload)
      (full : t.fecParams.k ≤ t.groupIndex + 1)
      (groupId : t'.groupId = t.groupId + 1)
      (groupIndex : t'.groupIndex = 0)
      (groupBuffer : t'.groupBuffer = [])
      (parity : List.Sublist (parities.map Sent.fecPacket)
        (parityPackets cfg.fec t.fecParams t.groupId (t.groupBuffer ++ [s.payload]))) :
      GroupStep cfg t (s :: parities) t'
  /-- A group that was not full was flushed. -/
  | flush {parities : List Sent} {t' : Tunnel σ}
      (nonempty : t.groupBuffer ≠ [])
      (groupId : t'.groupId = t.groupId + 1)
      (groupIndex : t'.groupIndex = 0)
      (groupBuffer : t'.groupBuffer = [])
      (parity : List.Sublist (parities.map Sent.fecPacket)
        (parityPackets cfg.fec t.fecParams t.groupId t.groupBuffer)) :
      GroupStep cfg t parities t'

theorem GroupStep.congr {packets : List Sent} {start : Tunnel σ}
    (step : GroupStep cfg t packets t') (same : SameGroup start t)
    (params : t.fecParams = start.fecParams) (after : SameGroup t' t'') :
    GroupStep cfg start packets t'' := by
  cases step with
  | idle control keeps => exact .idle control ((same.trans keeps).trans after)
  | data packet room groupId groupIndex groupBuffer =>
      refine .data ?_ ?_ ?_ ?_ ?_
      · rw [packet, params, same.groupId, same.groupIndex]
      · rw [← params, ← same.groupIndex]
        exact room
      · rw [after.groupId, groupId, same.groupId]
      · rw [after.groupIndex, groupIndex, same.groupIndex]
      · rw [after.groupBuffer, groupBuffer, same.groupBuffer]
  | fill packet full groupId groupIndex groupBuffer parity =>
      refine .fill ?_ ?_ ?_ (after.groupIndex.trans groupIndex)
        (after.groupBuffer.trans groupBuffer) ?_
      · rw [packet, params, same.groupId, same.groupIndex]
      · rw [← params, ← same.groupIndex]
        exact full
      · rw [after.groupId, groupId, same.groupId]
      · rw [← params, ← same.groupId, ← same.groupBuffer]
        exact parity
  | flush nonempty groupId groupIndex groupBuffer parity =>
      refine .flush ?_ ?_ (after.groupIndex.trans groupIndex)
        (after.groupBuffer.trans groupBuffer) ?_
      · rw [← same.groupBuffer]
        exact nonempty
      · rw [after.groupId, groupId, same.groupId]
      · rw [← params, ← same.groupId, ← same.groupBuffer]
        exact parity

theorem mem_parityPackets {scheme : FecScheme} {params : FecParams} {group : UInt16}
    {buffer : List Bytes} {p : FecPacket}
    (member : p ∈ parityPackets scheme params group buffer) :
    p.packetType = .fec ∧ p.group = group ∧ p.k = params.k ∧ p.m = params.m := by
  unfold parityPackets at member
  split at member
  · exact absurd member List.not_mem_nil
  · split at member
    · exact absurd member List.not_mem_nil
    · obtain ⟨parity, -, rfl⟩ := List.mem_map.mp member
      exact ⟨rfl, rfl, rfl, rfl⟩

theorem GroupStep.labels {packets : List Sent} (step : GroupStep cfg t packets t') {s : Sent}
    (member : s ∈ packets) (fec : s.IsFec) :
    s.fecPacket.group = t.groupId ∧ s.fecPacket.k = t.fecParams.k ∧
    s.fecPacket.m = t.fecParams.m := by
  have parity : ∀ {parities : List Sent} {buffer : List Bytes},
      List.Sublist (parities.map Sent.fecPacket)
        (parityPackets cfg.fec t.fecParams t.groupId buffer) → s ∈ parities → _ :=
      fun sublist inside =>
    (mem_parityPackets (sublist.subset (List.mem_map_of_mem inside))).2
  cases step with
  | idle control same => exact absurd fec (control s member)
  | data packet =>
      obtain rfl := List.mem_singleton.mp member
      rw [packet]
      exact ⟨rfl, rfl, rfl⟩
  | fill packet full groupId groupIndex groupBuffer sublist =>
      rcases List.mem_cons.mp member with rfl | inside
      · rw [packet]
        exact ⟨rfl, rfl, rfl⟩
      · exact parity sublist inside
  | flush nonempty groupId groupIndex groupBuffer sublist => exact parity sublist member

theorem joinGroup_sends (cfg : Config σ) (env : Env) (t : Tunnel σ) {k : UInt8}
    (own : k = t.fecParams.k) (packet : Bytes) :
    ∃ parities, Sends cfg t parities (t.joinGroup cfg env k packet) ∧
      ∀ (s : Sent) (start : Tunnel σ), SameGroup start t → start.fecParams = t.fecParams →
        s.fecPacket = dataPacket start.fecParams start.groupId start.groupIndex packet →
        GroupStep cfg start (s :: parities) (t.joinGroup cfg env k packet) := by
  subst own
  simp only [joinGroup]
  split
  · rename_i full
    obtain ⟨parities, sends, groupId, groupIndex, groupBuffer, parity⟩ :=
      flushFecGroup_sends cfg env
      (t := { t with groupBuffer := t.groupBuffer ++ [packet], groupIndex := t.groupIndex + 1 })
      (by simp)
    have joined : Sends cfg t []
        { t with groupBuffer := t.groupBuffer ++ [packet], groupIndex := t.groupIndex + 1 } :=
      .of_same rfl rfl rfl rfl ⟨rfl, rfl, rfl, rfl, rfl, rfl⟩ rfl
    refine ⟨parities, joined.trans sends, fun s start same params named => ?_⟩
    have payload : s.payload = packet := congrArg FecPacket.payload named
    refine .fill (payload ▸ named) ?_ (same.groupId ▸ groupId) groupIndex groupBuffer ?_
    · rw [params, ← same.groupIndex]
      exact full
    · rw [payload, params, ← same.groupId, ← same.groupBuffer]
      exact parity
  · rename_i room
    refine ⟨[], .of_same rfl rfl rfl rfl ⟨rfl, rfl, rfl, rfl, rfl, rfl⟩ rfl,
      fun s start same params named => ?_⟩
    have payload : s.payload = packet := congrArg FecPacket.payload named
    refine .data (payload ▸ named) ?_ same.groupId ?_ ?_
    · rw [params, ← same.groupIndex]
      exact UInt8.not_le.mp room
    · exact congrArg (· + 1) same.groupIndex
    · rw [payload, ← same.groupBuffer]

theorem Seals.joinGroup {hdr : PacketHeader} {packet wire : Bytes}
    (seals : Seals cfg t hdr packet (some wire) t') (current : hdr.Current)
    (fits : ¬ PATH_MTU < wire.length + OUTER_OVERHEAD) (env : Env) (len : Nat)
    (own : hdr.fecK = t.fecParams.k)
    (named : ∀ dest, Sent.fecPacket ⟨hdr, packet, wire, dest⟩ =
      dataPacket t.fecParams t.groupId t.groupIndex packet) :
    ∃ parities,
      Sends cfg t (⟨hdr, packet, wire, t.peer⟩ :: parities)
        ((t'.noteTransmitted env hdr packet wire len .data).joinGroup cfg env hdr.fecK packet) ∧
      GroupStep cfg t (⟨hdr, packet, wire, t.peer⟩ :: parities)
        ((t'.noteTransmitted env hdr packet wire len .data).joinGroup cfg env hdr.fecK packet) := by
  obtain ⟨parities, joins, moves⟩ := joinGroup_sends cfg env
    (t'.noteTransmitted env hdr packet wire len .data)
    (own.trans (congrArg FecParams.k seals.fecParams.symm)) packet
  refine ⟨parities, (seals.transmitted current fits env len .data).trans joins, ?_⟩
  exact moves _ t (seals.group.trans ⟨rfl, rfl, rfl⟩) seals.fecParams.symm (named t.peer)

/-- A send on the data path, and what it did to the group. -/
structure Transmits (cfg : Config σ) (t : Tunnel σ) (packets : List Sent) (t' : Tunnel σ) : Prop
    extends Sends cfg t packets t' where
  moves : GroupStep cfg t packets t'

theorem Transmits.nothing (id : t'.session.id = t.session.id)
    (next : t'.session.nextSeq = t.session.nextSeq) (seals : t'.seals = t.seals)
    (sent : t'.sent = t.sent) (rx : SameRx t t') (fecParams : t'.fecParams = t.fecParams)
    (group : SameGroup t t') : Transmits cfg t [] t' :=
  ⟨.of_same id next seals sent rx fecParams,
    .idle (fun _ member => absurd member List.not_mem_nil) group⟩

theorem Seals.dropped {hdr : PacketHeader} {payload : Bytes} {wire : Option Bytes}
    (seals : Seals cfg t hdr payload wire t') (id : t''.session.id = t'.session.id)
    (next : t''.session.nextSeq = t'.session.nextSeq) (same : t''.seals = t'.seals)
    (sent : t''.sent = t'.sent) (rx : SameRx t' t'') (fecParams : t''.fecParams = t'.fecParams)
    (group : SameGroup t' t'') : Transmits cfg t [] t'' :=
  ⟨seals.sends.trans (.of_same id next same sent rx fecParams),
    .idle (fun _ member => absurd member List.not_mem_nil) (seals.group.trans group)⟩

/-- What sending a packet from the TUN device does, and what it has sent when it
    reports success. -/
theorem sendData_transmits (cfg : Config σ) (env : Env) (t : Tunnel σ) (packet : Bytes)
    (len : Nat) :
    ∃ packets, Transmits cfg t packets (t.sendData cfg env packet len).2 ∧
      ((t.sendData cfg env packet len).1 = true → ∃ s rest, packets = s :: rest ∧
        s.fecPacket = dataPacket t.fecParams t.groupId t.groupIndex packet) := by
  simp only [sendData]
  split
  · rename_i mid made
    exact ⟨[], (seals_of_sealPacket rfl rfl made).dropped rfl rfl rfl rfl
      ⟨rfl, rfl, rfl, rfl, rfl, rfl⟩ rfl ⟨rfl, rfl, rfl⟩, nofun⟩
  rename_i wire mid made
  have seals := seals_of_sealPacket rfl rfl made
  split
  · exact ⟨[], seals.dropped rfl rfl rfl rfl ⟨rfl, rfl, rfl, rfl, rfl, rfl⟩ rfl
      ⟨rfl, rfl, rfl⟩, nofun⟩
  rename_i small
  split
  · obtain ⟨parities, sends, moves⟩ :=
      seals.joinGroup ⟨rfl, rfl⟩ small env len rfl fun _ => rfl
    exact ⟨_, ⟨sends, moves⟩, fun _ => ⟨_, _, rfl, rfl⟩⟩
  · exact ⟨[], seals.dropped rfl rfl rfl rfl ⟨rfl, rfl, rfl, rfl, rfl, rfl⟩ rfl
      ⟨rfl, rfl, rfl⟩, nofun⟩

theorem handleTunPacket_transmits (cfg : Config σ) (env : Env) (t : Tunnel σ) (packet : Bytes) :
    ∃ packets, Transmits cfg t packets (t.handleTunPacket cfg env packet).2 ∧
      ((t.handleTunPacket cfg env packet).1 = true →
        packet.length ≤ MAX_PAYLOAD ∧ ∃ s rest, packets = s :: rest ∧
          s.fecPacket = dataPacket t.fecParams t.groupId t.groupIndex packet) := by
  simp only [handleTunPacket]
  split
  · exact ⟨[], .nothing rfl rfl rfl rfl ⟨rfl, rfl, rfl, rfl, rfl, rfl⟩ rfl
      ⟨rfl, rfl, rfl⟩, nofun⟩
  rename_i short
  split
  · exact ⟨[], .nothing rfl rfl rfl rfl ⟨rfl, rfl, rfl, rfl, rfl, rfl⟩ rfl
      ⟨rfl, rfl, rfl⟩, nofun⟩
  split
  · exact ⟨[], .nothing rfl rfl rfl rfl ⟨rfl, rfl, rfl, rfl, rfl, rfl⟩ rfl
      ⟨rfl, rfl, rfl⟩, nofun⟩
  have admitted : ∀ c, Sends cfg t [] { t with congestion := c } := fun c =>
    .of_same rfl rfl rfl rfl ⟨rfl, rfl, rfl, rfl, rfl, rfl⟩ rfl
  obtain ⟨packets, sends, sent⟩ := sendData_transmits cfg env _ packet (max packet.length 1)
  refine ⟨packets, ⟨(admitted _).trans sends.toSends, ?_⟩, fun ok =>
    ⟨Nat.le_of_not_lt short, sent ok⟩⟩
  exact sends.moves.congr ⟨rfl, rfl, rfl⟩ rfl (.refl _)

theorem Transmits.parked {packets : List Sent} {before after : Option Bytes}
    {deadline deadline' : Option Instant}
    (sends : Transmits cfg (t.park before deadline) packets t') :
    Transmits cfg t packets (t'.park after deadline') := by
  have start : Sends cfg t [] (t.park before deadline) :=
    .of_same rfl rfl rfl rfl ⟨rfl, rfl, rfl, rfl, rfl, rfl⟩ rfl
  have finish : Sends cfg t' [] (t'.park after deadline') :=
    .of_same rfl rfl rfl rfl ⟨rfl, rfl, rfl, rfl, rfl, rfl⟩ rfl
  have total := (start.trans sends.toSends).trans finish
  rw [List.nil_append, List.append_nil] at total
  exact ⟨total, sends.moves.congr ⟨rfl, rfl, rfl⟩ rfl ⟨rfl, rfl, rfl⟩⟩

theorem Transmits.parkIfPaced {packets : List Sent} {before : Option Bytes}
    {deadline : Option Instant} (sends : Transmits cfg (t.park before deadline) packets t')
    (packet : Bytes) (after : Option Instant) :
    Transmits cfg t packets ((t'.park t'.pendingOut after).parkIfPaced cfg env packet) := by
  unfold Tunnel.parkIfPaced
  split
  · exact sends.parked
  · exact sends.parked

theorem onTun_transmits (cfg : Config σ) (env : Env) (t : Tunnel σ) (packet : Bytes) :
    ∃ packets, Transmits cfg t packets (t.onTun cfg env packet) := by
  obtain ⟨packets, sends, -⟩ := handleTunPacket_transmits cfg env (t.park none none) packet
  simp only [onTun]
  split
  · rename_i mid handled
    rw [handled] at sends
    exact ⟨packets, sends.parked⟩
  · rename_i mid handled
    rw [handled] at sends
    exact ⟨packets, sends.parkIfPaced packet mid.pendingDeadline⟩

theorem retryPending_transmits (cfg : Config σ) (env : Env) (t : Tunnel σ) :
    ∃ packets, Transmits cfg t packets (t.retryPending cfg env) := by
  unfold retryPending
  split
  · exact ⟨[], .nothing rfl rfl rfl rfl ⟨rfl, rfl, rfl, rfl, rfl, rfl⟩ rfl
      ⟨rfl, rfl, rfl⟩⟩
  · rename_i packet _
    obtain ⟨packets, sends, -⟩ :=
      handleTunPacket_transmits cfg env (t.park none t.pendingDeadline) packet
    split
    · rename_i mid handled
      rw [handled] at sends
      exact ⟨packets, sends.parked⟩
    · rename_i mid handled
      rw [handled] at sends
      exact ⟨packets, sends.parkIfPaced packet none⟩

theorem flushFecGroupIfStale_transmits (cfg : Config σ) (env : Env) (t : Tunnel σ) :
    ∃ packets, Transmits cfg t packets (t.flushFecGroupIfStale cfg env) := by
  unfold flushFecGroupIfStale
  split
  · exact ⟨[], .nothing rfl rfl rfl rfl ⟨rfl, rfl, rfl, rfl, rfl, rfl⟩ rfl
      ⟨rfl, rfl, rfl⟩⟩
  · rename_i filled
    have nonempty : t.groupBuffer ≠ [] := by simpa using filled
    obtain ⟨packets, sends, groupId, groupIndex, groupBuffer, parity⟩ :=
      flushFecGroup_sends cfg env nonempty
    exact ⟨packets, sends, .flush nonempty groupId groupIndex groupBuffer parity⟩

end Tunnel

end Rustnies
