import Rustnies.Tunnel.Moves
import Rustnies.Tunnel.Nonces

/-! # What an acknowledgement says

Two tunnels and a network that may hand either of them anything: packets of the other
end in any order and any number of times, or bytes of its own making that do not open.
Every header carries the window of the packets that its sender had heard by then, so a
packet that the one end retires as acknowledged is one that the other end has opened.
-/

namespace Rustnies

open Bitmap

variable {σ τ : Type}

/-! ## Windows that name what was received -/

namespace AckTracker

/-- The window names numbers that were received, and no other. -/
structure Attests (received : List UInt32) (a : AckTracker) : Prop where
  unset : a.anchor = 0 → a.bitmap = 0
  anchor : a.anchor ≠ 0 → a.anchor ∈ received
  bitmap : ∀ i, a.bitmap.toBitVec.getLsbD i = true → a.anchor - UInt32.ofNat
    (i + 1) ∈ received

variable {received received' : List UInt32} {a : AckTracker}

theorem Attests.mono (attests : Attests received a) (more : received ⊆ received') :
    Attests received' a :=
  ⟨attests.unset, fun set => more (attests.anchor set), fun i bit =>
    more (attests.bitmap i bit)⟩

theorem Attests.advance (attests : Attests received a) {seq : UInt32} (anchored : a.anchor ≠ 0)
    (nonzero : seq ≠ 0) (moved : seq - a.anchor ≠ 0) :
    Attests (received ++ [seq])
      ⟨seq, if seq - a.anchor ≤ 32
        then (if 32 ≤ seq - a.anchor then 0 else a.bitmap <<< (seq - a.anchor)) |||
        (1 <<< (seq - a.anchor - 1))
        else if 32 ≤ seq - a.anchor then 0 else a.bitmap <<< (seq - a.anchor)⟩ := by
  have slid : ∀ i, (a.bitmap.toBitVec <<< (seq - a.anchor).toNat).getLsbD i = true →
      seq - UInt32.ofNat (i + 1) ∈ received ++ [seq] := by
    intro i bit
    simp only [BitVec.getLsbD_shiftLeft, Bool.and_eq_true, decide_eq_true_eq, Bool.not_eq_true',
      decide_eq_false_iff_not, Nat.not_lt] at bit
    have place : UInt32.ofNat (i + 1) =
        UInt32.ofNat (i - (seq - a.anchor).toNat + 1) + (seq - a.anchor) := by
      rw [← UInt32.ofNat_toNat (x := seq - a.anchor), ← UInt32.ofNat_add, UInt32.ofNat_toNat]
      congr 1
      omega
    have old := attests.bitmap _ bit.2
    have same : seq - UInt32.ofNat (i + 1) = a.anchor - UInt32.ofNat
      (i - (seq - a.anchor).toNat + 1) := by
      rw [place]
      grind
    exact List.mem_append_left _ (same ▸ old)
  refine ⟨fun zero => absurd zero nonzero, fun _ => List.mem_append_right _ List.mem_cons_self,
    fun i bit => ?_⟩
  by_cases near : seq - a.anchor ≤ 32
  · have near' : (seq - a.anchor).toNat ≤ 32 := UInt32.le_iff_toNat_le.mp near
    have positive : (seq - a.anchor).toNat ≠ 0 := fun zero => moved (UInt32.toNat_inj.mp zero)
    have place : (seq - a.anchor - 1).toNat = (seq - a.anchor).toNat - 1 :=
      UInt32.toNat_sub_of_le _ _ (UInt32.le_iff_toNat_le.mpr (by simp; omega))
    simp only [if_pos near, UInt32.toBitVec_or, BitVec.getLsbD_or, Bool.or_eq_true,
      slide32_toBitVec, one_shl32_toBitVec (show (seq - a.anchor - 1).toNat < 32 by omega),
      BitVec.getLsbD_twoPow, Bool.and_eq_true, decide_eq_true_eq] at bit
    rcases bit with old | ⟨-, here⟩
    · exact slid i old
    · have back : UInt32.ofNat (i + 1) = seq - a.anchor := by
        rw [← UInt32.ofNat_toNat (x := seq - a.anchor)]
        congr 1
        omega
      have same : seq - UInt32.ofNat (i + 1) = a.anchor := by
        rw [back]
        grind
      exact List.mem_append_left _ (same ▸ attests.anchor anchored)
  · simp only [if_neg near, slide32_toBitVec] at bit
    exact slid i bit

theorem Attests.record (attests : Attests received a) (seq : UInt32) :
    Attests (received ++ [seq]) (a.record seq) := by
  have kept : Attests (received ++ [seq]) a := attests.mono (List.subset_append_left _ _)
  have last : seq ∈ received ++ [seq] := List.mem_append_right _ List.mem_cons_self
  unfold AckTracker.record
  by_cases zero : seq = 0
  · rwa [if_pos zero]
  rw [if_neg zero]
  by_cases unset : a.anchor = 0
  · rw [if_pos unset]
    refine ⟨fun none => absurd none zero, fun _ => last, fun i bit => ?_⟩
    rw [attests.unset unset] at bit
    simp at bit
  rw [if_neg unset]
  simp only
  by_cases still : seq - a.anchor = 0
  · rwa [if_pos still]
  rw [if_neg still]
  by_cases ahead : seq - a.anchor ≤ 0x7FFFFFFF
  · rw [if_pos ahead]
    exact attests.advance unset zero still
  rw [if_neg ahead]
  by_cases near : 1 ≤ a.anchor - seq ∧ a.anchor - seq ≤ 32
  · rw [if_pos near]
    refine ⟨fun none => absurd none unset, kept.anchor, fun i bit => ?_⟩
    have low : 1 ≤ (a.anchor - seq).toNat := UInt32.le_iff_toNat_le.mp near.1
    have high : (a.anchor - seq).toNat ≤ 32 := UInt32.le_iff_toNat_le.mp near.2
    have place : (a.anchor - seq - 1).toNat = (a.anchor - seq).toNat - 1 :=
      UInt32.toNat_sub_of_le _ _ near.1
    simp only [UInt32.toBitVec_or, BitVec.getLsbD_or, Bool.or_eq_true,
      one_shl32_toBitVec (show (a.anchor - seq - 1).toNat < 32 by omega), BitVec.getLsbD_twoPow,
      Bool.and_eq_true, decide_eq_true_eq] at bit
    rcases bit with old | ⟨-, here⟩
    · exact kept.bitmap i old
    · have back : UInt32.ofNat (i + 1) = a.anchor - seq := by
        rw [← UInt32.ofNat_toNat (x := a.anchor - seq)]
        congr 1
        omega
      have same : a.anchor - UInt32.ofNat (i + 1) = seq := by
        rw [back]
        grind
      exact same ▸ last
  · rwa [if_neg near]

theorem attests_foldl (received : List UInt32) :
    Attests received (received.foldl AckTracker.record {}) := by
  induction received using List.reverseRecOn with
  | nil => exact ⟨fun _ => rfl, fun set => absurd rfl set, fun i bit => by simp at bit⟩
  | append_singleton received seq ih =>
      rw [List.foldl_append]
      exact ih.record seq

/-- A number that a session finds acknowledged in the window was received. -/
theorem Attests.of_peerAcked (attests : Attests received a) {session : Session} {seq : UInt32}
    (acked : (session.observeAcks a.snapshot.1 a.snapshot.2).peerAcked seq = true) :
    seq ∈ received := by
  have reads : (session.observeAcks a.snapshot.1 a.snapshot.2).peerAcked seq =
      if seq = 0 ∨ a.anchor = 0 then false
      else if seq = a.anchor then true
      else if 1 ≤ a.anchor - seq ∧ a.anchor - seq ≤ 32
        then (a.bitmap >>> (a.anchor - seq - 1)) &&& 1 == 1
      else false := rfl
  rw [reads] at acked
  by_cases unset : seq = 0 ∨ a.anchor = 0
  · rw [if_pos unset] at acked
    cases acked
  rw [if_neg unset] at acked
  by_cases same : seq = a.anchor
  · exact same ▸ attests.anchor (not_or.mp unset).2
  rw [if_neg same] at acked
  by_cases near : 1 ≤ a.anchor - seq ∧ a.anchor - seq ≤ 32
  · rw [if_pos near] at acked
    have high : (a.anchor - seq).toNat ≤ 32 := UInt32.le_iff_toNat_le.mp near.2
    have low : 1 ≤ (a.anchor - seq).toNat := UInt32.le_iff_toNat_le.mp near.1
    have place : (a.anchor - seq - 1).toNat = (a.anchor - seq).toNat - 1 :=
      UInt32.toNat_sub_of_le _ _ near.1
    have marked := attests.bitmap _ ((bit_test32 a.bitmap (by omega)).mp acked)
    have back : UInt32.ofNat ((a.anchor - seq - 1).toNat + 1) = a.anchor - seq := by
      rw [place, Nat.sub_add_cancel low, UInt32.ofNat_toNat]
    have here : a.anchor - UInt32.ofNat ((a.anchor - seq - 1).toNat + 1) = seq := by
      rw [back]
      grind
    exact here ▸ marked
  · rw [if_neg near] at acked
    cases acked

end AckTracker

namespace Tunnel

/-! ## What a tunnel heard -/

def Note.packet? : Note → Option (PacketHeader × Bytes)
  | .heard hdr payload => some (hdr, payload)
  | .checked _ | .counted _ => none

/-- The packets that the notes tell of. -/
def heardOf (notes : List Note) : List (PacketHeader × Bytes) := notes.filterMap Note.packet?

@[simp]
theorem heardOf_append (notes notes' : List Note) :
    heardOf (notes ++ notes') = heardOf notes ++ heardOf notes' :=
  List.filterMap_append

/-- The window of the packets heard. -/
def windowOf (heard : List (PacketHeader × Bytes)) : AckTracker :=
  (heard.map fun packet => packet.1.seq).foldl AckTracker.record {}

theorem windowOf_concat (heard : List (PacketHeader × Bytes)) (packet : PacketHeader × Bytes) :
    windowOf (heard ++ [packet]) = (windowOf heard).record packet.1.seq := by
  rw [windowOf, List.map_append, List.foldl_append]
  rfl

/-- The header carries the window of packets that were heard. -/
def Advertises (heard : List (PacketHeader × Bytes)) (hdr : PacketHeader) : Prop :=
  ∃ before, before <+: heard ∧ (hdr.ackSeq, hdr.ackBitmap) = (windowOf before).snapshot

variable {cfg : Config σ} {env : Env} {phase : Phase} {packet : Option (PacketHeader × Bytes)}
  {t t' : Tunnel σ} {notes : List Note}

/-- The tracker is the window of what was heard, and every header carries such a window. -/
structure Candid (t : Tunnel σ) (heard : List (PacketHeader × Bytes)) : Prop where
  window : t.session.ack = windowOf heard
  stamps : ∀ p ∈ t.sent, Advertises heard p.hdr

theorem Candid.sends {heard : List (PacketHeader × Bytes)} (candid : t.Candid heard)
    {hdr : PacketHeader} (stamped : t.Stamped hdr) {s : Sent} (own : s.hdr = hdr)
    (ack : t'.session.ack = t.session.ack) (sent : t'.sent = t.sent ++ [s]) : t'.Candid heard := by
  refine ⟨ack.trans candid.window, fun p member => ?_⟩
  rw [sent] at member
  rcases List.mem_append.mp member with before | now
  · exact candid.stamps p before
  · rw [List.mem_singleton.mp now, own]
    refine ⟨heard, List.prefix_refl _, ?_⟩
    rw [← candid.window]
    exact stamped.ack

theorem Move.window {heard : List (PacketHeader × Bytes)}
    (move : Move cfg env phase packet t notes t') (window : t.session.ack = windowOf heard) :
    t'.session.ack = windowOf (heard ++ heardOf notes) := by
  cases move with
  | hears opened =>
      rename_i hdr payload
      have noted : heardOf [.heard hdr payload] = [(hdr, payload)] := rfl
      rw [noted, windowOf_concat, ← window]
  | _ => exact window.trans (congrArg windowOf (List.append_nil heard).symm)

theorem Move.candid {heard : List (PacketHeader × Bytes)}
    (move : Move cfg env phase packet t notes t') (candid : t.Candid heard) :
    t'.Candid (heard ++ heardOf notes) := by
  have window := move.window candid.window
  have quiet : heard ++ heardOf [] = heard := List.append_nil heard
  have silent : t'.sent = t.sent → t'.Candid (heard ++ heardOf notes) := by
    refine fun same => ⟨window, fun p member => ?_⟩
    obtain ⟨before, isPrefix, snapshot⟩ := candid.stamps p (same ▸ member)
    exact ⟨before, isPrefix.trans (List.prefix_append _ _), snapshot⟩
  cases move with
  | control stamped kind payload wire =>
      rw [quiet]
      exact candid.sends stamped (s := ⟨_, payload, wire, t.peer⟩) rfl rfl rfl
  | transmit sending stamped fec payload wire =>
      rw [quiet]
      exact candid.sends stamped (s := ⟨_, payload, wire, t.peer⟩) rfl rfl rfl
  | _ => exact silent rfl

/-! ## The window at the moment of sending -/

theorem reconcilePeerAcks_sent (t : Tunnel σ) : (t.reconcilePeerAcks cfg env).2.sent = t.sent := by
  have windows : ∀ (resolved : List (UInt32 × Bool × SentPacket)) (t : Tunnel σ),
      (resolved.foldl (fun t r => t.noteResolved cfg env r.2.1 r.2.2.kind) t).sent = t.sent := by
    intro resolved
    induction resolved with
    | nil => exact fun _ => rfl
    | cons r resolved ih =>
        intro t
        rw [List.foldl_cons, ih]
        simp only [noteResolved, applyFecParams]
        split <;> split <;> (try split) <;> rfl
  obtain ⟨acked, lost, rtt, -, -, same⟩ := reconcilePeerAcks_eq cfg env t
  rw [same, windows]

/-- Before a packet is noted as received, nothing is sent and the window is as it was. -/
theorem before_noted (cfg : Config σ) (env : Env) (t : Tunnel σ) (source : SocketAddr)
    (hdr : PacketHeader) :
    ((t.observePeerAcks cfg env hdr).followPeer cfg source).sent = t.sent ∧
    ((t.observePeerAcks cfg env hdr).followPeer cfg source).session.ack = t.session.ack := by
  have followed : ∀ t : Tunnel σ, (t.followPeer cfg source).sent = t.sent ∧
      (t.followPeer cfg source).session.ack = t.session.ack := by
    intro t
    unfold followPeer
    split <;> exact ⟨rfl, rfl⟩
  have observed : (t.observePeerAcks cfg env hdr).sent = t.sent ∧
      (t.observePeerAcks cfg env hdr).session.ack = t.session.ack := by
    rw [observePeerAcks_eq]
    split
    · have noted : ∀ r : Bool × Tunnel σ, (noteReconciled hdr r).sent = r.2.sent ∧
          (noteReconciled hdr r).session.ack = r.2.session.ack := by
        intro r
        simp only [noteReconciled]
        split <;> exact ⟨rfl, rfl⟩
      have ack := congrArg Session.ack (reconcilePeerAcks_session cfg env
        { t with session := t.session.observeAcks hdr.ackSeq hdr.ackBitmap })
      exact ⟨(noted _).1.trans (reconcilePeerAcks_sent _), (noted _).2.trans ack⟩
    · exact ⟨rfl, rfl⟩
  exact ⟨(followed _).1.trans observed.1, (followed _).2.trans observed.2⟩

theorem heardOf_tail (t : Tunnel σ) (hdr : PacketHeader) (payload : Bytes) :
    heardOf (t.notesOf hdr payload).tail = [] := by
  unfold notesOf
  split
  · split <;> rfl
  · rfl

/-- The state in which a turn begins to send: the packet that the turn opens is noted. -/
structure Hears (t : Tunnel σ) (opened : List Note) (start : Tunnel σ) : Prop where
  sent : start.sent = t.sent
  window : ∀ heard, t.session.ack = windowOf heard → start.session.ack =
    windowOf (heard ++ heardOf opened)

theorem handleEvent_hears {e : Event} (running : t.exit = none)
    (done : t.handleEvent cfg env e = some t') :
    ∃ start later, t.Hears (t.notes cfg e) start ∧ heardOf later = [] ∧
      Moves cfg env (phaseOf e) (t.opened cfg e) start later t' := by
  have trail := handleEvent_moves running done
  cases packet : t.opened cfg e with
  | none =>
      have unheard : t.notes cfg e = [] := by
        simp only [notes, running, packet, Option.isSome_none, Bool.false_eq_true, if_false]
      rw [unheard, packet] at trail
      rw [unheard]
      refine ⟨t, [], ⟨rfl, fun heard window => ?_⟩, rfl, trail⟩
      exact window.trans (congrArg windowOf (List.append_nil heard).symm)
  | some opened =>
      obtain ⟨hdr, payload⟩ := opened
      cases e with
      | datagram bytes source =>
          have result : cfg.openDatagram t.session.id bytes = .ok (hdr, payload) := by
            simp only [Tunnel.opened] at packet
            cases result : cfg.openDatagram t.session.id bytes with
            | error e =>
                rw [result] at packet
                cases packet
            | ok opened =>
                rw [result] at packet
                cases packet
                rfl
          have noted : t.notes cfg (.datagram bytes source) = t.notesOf hdr payload := by
            simp only [notes, running, packet, Option.isSome_none, Bool.false_eq_true, if_false]
          obtain ⟨mid, handled, rfl⟩ := Option.map_eq_some_iff.mp done
          simp only [handleUdpDatagram, result] at handled
          obtain ⟨sent, ack⟩ := before_noted cfg env t source hdr
          rw [noted]
          refine ⟨((t.observePeerAcks cfg env hdr).followPeer cfg source).noted env hdr, _,
            ⟨sent, fun heard window => ?_⟩, heardOf_tail t hdr payload, ?_⟩
          · have last : heardOf (t.notesOf hdr payload) = [(hdr, payload)] := by
              rw [notesOf_eq]
              exact congrArg _ (heardOf_tail t hdr payload)
            rw [last, windowOf_concat, ← window, ← ack]
            rfl
          · have answers : Moves cfg env .settles (some (hdr, payload)) _ _ _ :=
              acceptPacket_answers rfl handled
            have left := answers.trans (.single (.leaves (some .peerClosed)))
            rw [List.append_nil] at left
            exact .ite left answers
      | _ => cases packet

theorem sends_window {start : Tunnel σ} (quiet : heardOf notes = [])
    (trail : Moves cfg env phase packet start notes t') :
    ∃ packets, t'.sent = start.sent ++ packets ∧
      ∀ p ∈ packets, (p.hdr.ackSeq, p.hdr.ackBitmap) = start.session.ack.snapshot := by
  have kept := trail.invariant (fun t notes => heardOf notes = [] →
    t.session.ack = start.session.ack ∧ ∃ packets, t.sent = start.sent ++ packets ∧
      ∀ p ∈ packets, (p.hdr.ackSeq, p.hdr.ackBitmap) = start.session.ack.snapshot)
    (fun t notes t' old move kept quiet => ?_)
    (show heardOf [] = [] → _ from fun _ => ⟨rfl, [], (List.append_nil _).symm, nofun⟩)
  · exact (kept quiet).2
  rw [heardOf_append, List.append_eq_nil_iff] at quiet
  obtain ⟨ack, packets, sent, stamps⟩ := kept quiet.1
  have sends : ∀ {hdr : PacketHeader} {payload wire : Bytes}, t.Stamped hdr →
      ∃ packets, t.sent ++ [⟨hdr, payload, wire, t.peer⟩] = start.sent ++ packets ∧
        ∀ p ∈ packets, (p.hdr.ackSeq, p.hdr.ackBitmap) = start.session.ack.snapshot := by
    intro hdr payload wire stamped
    refine ⟨packets ++ [⟨hdr, payload, wire, t.peer⟩],
      by rw [sent, List.append_assoc], fun p member => ?_⟩
    rcases List.mem_append.mp member with before | now
    · exact stamps p before
    · rw [List.mem_singleton.mp now, ← ack]
      exact stamped.ack
  cases move with
  | hears opened => cases quiet.2
  | control stamped kind payload wire => exact ⟨ack, sends stamped⟩
  | transmit sending stamped fec payload wire => exact ⟨ack, sends stamped⟩
  | _ => exact ⟨ack, packets, sent, stamps⟩

theorem step_hears {turn : Env × Event} (stepped : step cfg t turn = some t') :
    ∃ start later, t.Hears (t.notes cfg turn.2) start ∧ heardOf later = [] ∧
      Moves cfg turn.1 (phaseOf turn.2) (t.opened cfg turn.2) start later t' := by
  cases exited : t.exit with
  | some exit =>
      rw [step_exited turn (by rw [exited]; rfl)] at stepped
      cases stepped
      have silent : t.notes cfg turn.2 = [] :=
        by simp only [notes, exited, Option.isSome_some, if_true]
      rw [silent]
      refine ⟨t, [], ⟨rfl, fun heard window => ?_⟩, rfl, .refl t⟩
      exact window.trans (congrArg windowOf (List.append_nil heard).symm)
  | none =>
      rw [step_running turn exited] at stepped
      exact handleEvent_hears exited stepped

theorem notesAlong_concat {turns : List (Env × Event)} {mid : Tunnel σ}
    (ran : run cfg t turns = some mid) (turn : Env × Event) :
    t.notesAlong cfg (turns ++ [turn]) = t.notesAlong cfg turns ++ mid.notes cfg turn.2 := by
  induction turns generalizing t with
  | nil =>
      cases ran
      rw [List.nil_append, notesAlong, notesAlong, List.nil_append]
      split
      · exact List.append_nil _
      · exact List.append_nil _
  | cons first turns ih =>
      obtain ⟨next, stepped, rest⟩ := Runs.run_cons_eq_some.mp ran
      rw [List.cons_append, notesAlong, notesAlong, stepped, List.append_assoc]
      exact congrArg _ (ih rest)

/-- Every packet that a turn sends carries the window of all that the tunnel had opened by
    then, the packet of the turn included, in every run. -/
theorem advertises_heard {turns : List (Env × Event)} {turn : Env × Event} {mid : Tunnel σ}
    (fresh : t.session.ack = {}) (ran : run cfg t turns = some mid)
    (stepped : step cfg mid turn = some t') :
    ∃ packets, t'.sent = mid.sent ++ packets ∧ ∀ p ∈ packets,
      (p.hdr.ackSeq, p.hdr.ackBitmap) =
        (windowOf (heardOf (t.notesAlong cfg (turns ++ [turn])))).snapshot := by
  have window : mid.session.ack = windowOf (heardOf (t.notesAlong cfg turns)) :=
    run_notes (fun t notes => t.session.ack = windowOf (heardOf notes))
      (fun _ _ _ _ _ _ _ move window => by
        rw [heardOf_append]
        exact move.window window) ran (show _ = windowOf (heardOf []) from fresh)
  obtain ⟨start, later, hears, quiet, trail⟩ := step_hears stepped
  obtain ⟨packets, sent, stamps⟩ := sends_window quiet trail
  refine ⟨packets, sent.trans (congrArg (· ++ packets) hears.sent), fun p member => ?_⟩
  rw [stamps p member, hears.window _ window, notesAlong_concat ran, heardOf_append]

/-- The datagram of the first packet that the tunnel sent. -/
def firstWire (t : Option (Tunnel Unit)) : Bytes :=
  ((t.bind fun t => t.sent.head?).map Sent.wire).getD []

/-- The first data packet of the peer. -/
def dataArrives : Env × Event :=
  let data := firstWire
    (step (sampleConfig .initiatorToResponder .responderToInitiator) (sampleTunnel ⟨1, 2⟩)
    (sampleEnv 0 0, .tun [1]))
  (sampleEnv 1 0, .datagram data (sampleAddr 1))

def ackDue : Env × Event := (sampleEnv 2 0, .ackTick)

/-- A packet arrives, and is acknowledged at the next tick. -/
def hearsOne : List (Env × Event) := [dataArrives, ackDue]

theorem hearsOne_advertised : ∃ (mid t' : Tunnel Unit) (p : Sent),
    run (sampleConfig .responderToInitiator .initiatorToResponder) (sampleTunnel ⟨1, 2⟩)
    [dataArrives] = some mid ∧ step
    (sampleConfig .responderToInitiator .initiatorToResponder) mid ackDue = some t' ∧
    t'.sent = mid.sent ++ [p] ∧ p.hdr.ackSeq = 1 ∧
    (p.hdr.ackSeq, p.hdr.ackBitmap) = (windowOf (heardOf ((sampleTunnel ⟨1, 2⟩).notesAlong
      (sampleConfig .responderToInitiator .initiatorToResponder)
      [dataArrives, ackDue]))).snapshot := by
  have evaluated :
    ((run (sampleConfig .responderToInitiator .initiatorToResponder) (sampleTunnel ⟨1, 2⟩)
    [dataArrives]).bind fun mid =>
        (step (sampleConfig .responderToInitiator .initiatorToResponder) mid ackDue).map fun t' =>
          (t'.sent.drop mid.sent.length).map fun p => p.hdr.ackSeq) = some [1] := by
    decide +kernel
  obtain ⟨mid, ran, evaluated⟩ := Option.bind_eq_some_iff.mp evaluated
  obtain ⟨t', stepped, acks⟩ := Option.map_eq_some_iff.mp evaluated
  obtain ⟨packets, sent, stamps⟩ := advertises_heard rfl ran stepped
  rw [sent, List.drop_left, List.map_eq_singleton_iff] at acks
  obtain ⟨p, rfl, one⟩ := acks
  exact ⟨mid, t', p, ran, stepped, sent, one, stamps p List.mem_cons_self⟩

/-! ## What a tunnel holds of the packets it sent -/

/-- The record stands for a data or parity packet that was sent. -/
def Recorded (t : Tunnel σ) (seq : UInt32) (record : SentPacket) : Prop :=
  ∃ p ∈ t.sent, p.IsFec ∧ p.hdr.seq = seq ∧ max p.payload.length 1 = record.bytes

structure Records (t : Tunnel σ) : Prop where
  open_ : ∀ e ∈ t.sentPackets.entries, t.Recorded e.1 e.2
  resolved : ∀ r ∈ t.resolutions, t.Recorded r.1 r.2.2

theorem Recorded.mono {seq : UInt32} {record : SentPacket} (recorded : t.Recorded seq record)
    (more : t.sent ⊆ t'.sent) : t'.Recorded seq record := by
  obtain ⟨p, member, rest⟩ := recorded
  exact ⟨p, more member, rest⟩

theorem Move.records (move : Move cfg env phase packet t notes t') (records : t.Records) :
    t'.Records := by
  cases move with
  | control stamped kind payload wire =>
      rename_i hdr
      have more := List.subset_append_left t.sent [⟨hdr, payload, wire, t.peer⟩]
      exact ⟨fun e member => (records.open_ e member).mono more, fun r member =>
        (records.resolved r member).mono more⟩
  | transmit sending stamped fec payload wire =>
      rename_i hdr kind
      have more := List.subset_append_left t.sent [⟨hdr, payload, wire, t.peer⟩]
      refine ⟨fun e member => ?_, fun r member => (records.resolved r member).mono more⟩
      rcases List.mem_cons.mp member with rfl | old
      · exact ⟨_, List.mem_append_right _ List.mem_cons_self, fec, rfl, rfl⟩
      · exact (records.open_ e ((List.kerase_sublist _ _).subset old)).mono more
  | resolves settling kept held sound =>
      refine ⟨fun e member => records.open_ e (kept member), fun r member => ?_⟩
      rcases List.mem_append.mp member with old | new
      · exact records.resolved r old
      · exact records.open_ _ (held r new)
  | _ => exact ⟨records.open_, records.resolved⟩

/-- The numbers of the packets sent are those of the seals, each once. -/
structure Numbered (start : UInt32) (t : Tunnel σ) : Prop where
  counter : t.session.nextSeq = start + UInt32.ofNat t.seals.length
  drawn : ∀ p ∈ t.sent, ∃ i < t.seals.length, p.hdr.seq = start + UInt32.ofNat i
  once : (t.sent.map fun p => p.hdr.seq).Nodup

/-- As long as the numbers do not come round. -/
def NumberedYet (start : UInt32) (t : Tunnel σ) : Prop :=
  t.seals.length ≤ 2 ^ 32 → t.Numbered start

theorem NumberedYet.sealing {start : UInt32} (numbered : t.NumberedYet start) {hdr : PacketHeader}
    (payload : Bytes) :
    (t.afterSeal cfg hdr payload).NumberedYet start := by
  intro few
  have length : (t.afterSeal cfg hdr payload).seals.length = t.seals.length + 1 :=
    List.length_append
  obtain ⟨counter, drawn, once⟩ := numbered (by omega)
  refine ⟨?_, fun p member => ?_, once⟩
  · rw [length, UInt32.ofNat_add, ← UInt32.add_assoc, ← counter]
    rfl
  · obtain ⟨i, inside, same⟩ := drawn p member
    exact ⟨i, by omega, same⟩

theorem NumberedYet.sends {start : UInt32} (numbered : t.NumberedYet start) {hdr : PacketHeader}
    (stamped : t.Stamped hdr) (payload : Bytes) {s : Sent} (own : s.hdr = hdr)
    (session : t'.session = t.session.allocSeq.2)
    (seals : t'.seals = (t.afterSeal cfg hdr payload).seals) (sent : t'.sent = t.sent ++ [s]) :
    t'.NumberedYet start := by
  intro few
  have length : t'.seals.length = t.seals.length + 1 := by
    rw [seals]
    exact List.length_append
  obtain ⟨counter, drawn, once⟩ := numbered (by omega)
  have number : s.hdr.seq = start + UInt32.ofNat t.seals.length := by rw [own, stamped.seq, counter]
  refine ⟨?_, fun p member => ?_, ?_⟩
  · rw [length, UInt32.ofNat_add, ← UInt32.add_assoc, ← counter, session]
    rfl
  · rw [sent] at member
    rcases List.mem_append.mp member with old | new
    · obtain ⟨i, inside, same⟩ := drawn p old
      exact ⟨i, by omega, same⟩
    · rw [List.mem_singleton.mp new]
      exact ⟨t.seals.length, by omega, number⟩
  · rw [sent, List.map_append, List.nodup_append]
    refine ⟨once, List.nodup_singleton _, fun a old b new => ?_⟩
    obtain ⟨p, member, rfl⟩ := List.mem_map.mp old
    obtain rfl := List.mem_singleton.mp new
    obtain ⟨i, inside, same⟩ := drawn p member
    intro equal
    have := seq_injective (by omega) (by omega) ((same.symm.trans equal).trans number)
    omega

theorem Move.numbered {start : UInt32} (move : Move cfg env phase packet t notes t')
    (numbered : t.NumberedYet start) : t'.NumberedYet start := by
  have same : ∀ {t' : Tunnel σ}, t'.session.nextSeq = t.session.nextSeq → t'.seals =
    t.seals → t'.sent = t.sent → t'.NumberedYet start := by
    intro t' next seals sent few
    obtain ⟨counter, drawn, once⟩ := numbered (by rwa [seals] at few)
    refine ⟨by rw [next, seals, counter], fun p member => ?_, by rwa [sent]⟩
    rw [seals]
    exact drawn p (sent ▸ member)
  cases move with
  | sealing stamped payload => exact numbered.sealing payload
  | control stamped kind payload wire =>
      exact numbered.sends stamped payload (s := ⟨_, payload, wire, t.peer⟩) rfl rfl rfl rfl
  | transmit sending stamped fec payload wire =>
      exact numbered.sends stamped payload (s := ⟨_, payload, wire, t.peer⟩) rfl rfl rfl rfl
  | _ => exact same rfl rfl rfl

/-! ## What a tunnel was told -/

/-- A packet that was heard acknowledges the number. -/
def Acknowledges (heard : List (PacketHeader × Bytes)) (seq : UInt32) : Prop :=
  ∃ packet ∈ heard, ∀ session : Session,
    (session.observeAcks packet.1.ackSeq packet.1.ackBitmap).peerAcked seq = true

/-- The window of the peer is that of a packet that was heard, and so were those behind
    every packet that was retired as acknowledged. -/
structure Told (heard : List (PacketHeader × Bytes)) (t : Tunnel σ) : Prop where
  window : ∀ seq, t.session.peerAcked seq = true → Acknowledges heard seq
  resolved : ∀ r ∈ t.resolutions, r.2.1 = true → Acknowledges heard r.1

theorem Told.mono {heard heard' : List (PacketHeader × Bytes)} (told : t.Told heard)
    (more : heard ⊆ heard') :
    t.Told heard' := by
  have widen : ∀ {seq}, Acknowledges heard seq → Acknowledges heard' seq :=
    fun ⟨packet, member, acks⟩ => ⟨packet, more member, acks⟩
  exact ⟨fun seq acked => widen (told.window seq acked), fun r member acked =>
    widen (told.resolved r member acked)⟩

theorem Move.told {heard : List (PacketHeader × Bytes)}
    (known : ∀ p, packet = some p → p ∈ heard) (move : Move cfg env phase packet t notes t')
    (told : t.Told heard) : t'.Told heard := by
  cases move with
  | observes opened =>
      rename_i hdr payload
      exact ⟨fun seq acked => ⟨(hdr, payload), known _ opened, fun _ => acked⟩,
        told.resolved⟩
  | resolves settling kept held sound =>
      refine ⟨told.window, fun r member acked => ?_⟩
      rcases List.mem_append.mp member with old | new
      · exact told.resolved r old acked
      · exact told.window r.1 (sound r new acked)
  | _ => exact ⟨told.window, told.resolved⟩

end Tunnel

/-! ## Two tunnels -/

/-- One end of a session, with the packets that it opened. -/
structure End (σ : Type) where
  tunnel : Tunnel σ
  heard : List (PacketHeader × Bytes) := []

structure Duplex (σ τ : Type) where
  left : End σ
  right : End τ

/-- A turn of the one end or the other, with whatever the network hands it. -/
inductive DuplexEvent where
  | left (turn : Env × Event)
  | right (turn : Env × Event)

def End.step (cfg : Config σ) (e : End σ) (turn : Env × Event) : Option (End σ) :=
  (Tunnel.step cfg e.tunnel turn).map fun t =>
    ⟨t, e.heard ++ Tunnel.heardOf (e.tunnel.notes cfg turn.2)⟩

/-- What the end opens in the turn is a packet that the other end sent. -/
def End.Hears (cfg : Config σ) (e : End σ) (other : Tunnel τ) (turn : Env × Event) : Prop :=
  ∀ packet ∈ Tunnel.heardOf (e.tunnel.notes cfg turn.2), ∃ p ∈ other.sent,
    (p.hdr, p.payload) = packet

namespace Duplex

variable (tx : Config σ) (rx : Config τ)

def step (d : Duplex σ τ) : DuplexEvent → Option (Duplex σ τ)
  | .left turn => (d.left.step tx turn).map fun e => { d with left := e }
  | .right turn => (d.right.step rx turn).map fun e => { d with right := e }

/-- The ciphers open nothing but what the other end sealed and sent. -/
def Unforged (d : Duplex σ τ) : DuplexEvent → Prop
  | .left turn => d.left.Hears tx d.right.tunnel turn
  | .right turn => d.right.Hears rx d.left.tunnel turn

end Duplex

/-- An end that the handshake has just handed over. -/
structure End.New (e : End σ) : Prop where
  heard : e.heard = []
  ack : e.tunnel.session.ack = {}
  peerAck : e.tunnel.session.peerAck = 0
  seals : e.tunnel.seals = []
  sent : e.tunnel.sent = []
  sentPackets : e.tunnel.sentPackets = ∅
  resolutions : e.tunnel.resolutions = []

theorem End.new_fromHandshake (cfg : Config σ) (peer : SocketAddr) (id : SessionId)
    (role : SessionRole) (congestion : σ) (now : Instant) (fc : FecConfig) :
    End.New ⟨(Tunnel.fromHandshake peer (.new id role) congestion now).configureFec cfg fc,
      []⟩ := by
  obtain ⟨fec, params, same⟩ := Tunnel.configureFec_eq cfg
    (Tunnel.fromHandshake peer (.new id role) congestion now) fc
  rw [same]
  exact ⟨rfl, rfl, rfl, rfl, rfl, rfl, rfl⟩

/-- What holds of an end whatever it is handed. -/
structure End.Honest (start : UInt32) (e : End σ) : Prop where
  candid : e.tunnel.Candid e.heard
  records : e.tunnel.Records
  numbered : e.tunnel.NumberedYet start
  told : e.tunnel.Told e.heard

namespace End

variable {cfg : Config σ} {e e' : End σ} {start : UInt32} {turn : Env × Event}

theorem New.honest (new : e.New) : e.Honest e.tunnel.session.nextSeq := by
  obtain ⟨heard, ack, peerAck, seals, sent, sentPackets, resolutions⟩ := new
  refine ⟨⟨?_, ?_⟩, ⟨?_, ?_⟩, fun _ => ⟨?_, ?_, ?_⟩, ⟨?_, ?_⟩⟩
  · rw [ack, heard]
    rfl
  · simp [sent]
  · simp [sentPackets]
  · simp [resolutions]
  · simp [seals]
  · simp [sent]
  · simp [sent]
  · intro seq acked
    simp [Session.peerAcked, peerAck] at acked
  · simp [resolutions]

theorem step_grows (stepped : e.step cfg turn = some e') :
    e'.heard = e.heard ++ Tunnel.heardOf (e.tunnel.notes cfg turn.2) ∧
      Tunnel.step cfg e.tunnel turn = some e'.tunnel := by
  obtain ⟨t, turned, rfl⟩ := Option.map_eq_some_iff.mp stepped
  exact ⟨rfl, turned⟩

theorem mem_heardOf_notes {t : Tunnel σ} {ev : Event} {packet : PacketHeader × Bytes}
    (running : t.exit = none) (opened : t.opened cfg ev = some packet) :
    packet ∈ Tunnel.heardOf (t.notes cfg ev) := by
  obtain ⟨hdr, payload⟩ := packet
  have noted : t.notes cfg ev = t.notesOf hdr payload := by
    simp only [Tunnel.notes, running, Option.isSome_none, Bool.false_eq_true, if_false, opened]
  rw [noted, Tunnel.notesOf]
  split
  · split
    · exact List.mem_cons_self
    · exact List.mem_cons_self
  · exact List.mem_cons_self

theorem Honest.step (honest : e.Honest start) (stepped : e.step cfg turn = some e') :
    e'.Honest start := by
  obtain ⟨heard, turned⟩ := step_grows stepped
  have more : e.heard ⊆ e'.heard := heard ▸ List.subset_append_left _ _
  cases exited : e.tunnel.exit with
  | some exit =>
      have idle : e.tunnel.notes cfg turn.2 = [] := by
        simp only [Tunnel.notes, exited, Option.isSome_some, if_true]
      rw [Tunnel.step_exited _ (by rw [exited]; rfl)] at turned
      rw [idle, show Tunnel.heardOf [] = [] from rfl, List.append_nil] at heard
      obtain ⟨t, h⟩ := e'
      cases turned
      obtain rfl : h = e.heard := heard
      exact honest
  | none =>
      have trail := Tunnel.step_moves turned
      have known : ∀ p, e.tunnel.opened cfg turn.2 = some p → p ∈ e'.heard := by
        intro p opened
        rw [heard]
        exact List.mem_append_right _ (mem_heardOf_notes exited opened)
      refine ⟨?_, ?_, ?_, ?_⟩
      · have start : e.tunnel.Candid (e.heard ++ Tunnel.heardOf []) :=
          (List.append_nil e.heard).symm ▸ honest.candid
        have kept := trail.invariant (fun t notes => t.Candid (e.heard ++ Tunnel.heardOf notes))
          (fun _ _ _ _ move candid => by
            rw [Tunnel.heardOf_append, ← List.append_assoc]
            exact move.candid candid) start
        rw [heard]
        exact kept
      · exact trail.preserves Tunnel.Records (fun _ _ _ => Tunnel.Move.records) honest.records
      · exact trail.preserves (Tunnel.NumberedYet start) (fun _ _ _ => Tunnel.Move.numbered)
          honest.numbered
      · exact trail.preserves (Tunnel.Told e'.heard) (fun _ _ _ => Tunnel.Move.told known)
          (honest.told.mono more)

/-- What the end retired as acknowledged, the other end opened: the header that told it so
    names what the other end had heard, and a number belongs to one packet. -/
theorem Honest.acknowledged {other : End τ} {start' : UInt32} (honest : e.Honest start)
    (other_honest : other.Honest start')
    (heard : ∀ packet ∈ e.heard, ∃ p ∈ other.tunnel.sent, (p.hdr, p.payload) = packet)
    (other_heard : ∀ packet ∈ other.heard, ∃ p ∈ e.tunnel.sent, (p.hdr, p.payload) = packet)
    (few : e.tunnel.seals.length ≤ 2 ^ 32) :
    ∀ r ∈ e.tunnel.resolutions, r.2.1 = true → ∃ p ∈ e.tunnel.sent, p.IsFec ∧
    p.hdr.seq = r.1 ∧ max p.payload.length 1 = r.2.2.bytes ∧
    (p.hdr, p.payload) ∈ other.heard := by
  intro r member acked
  obtain ⟨p, sent, fec, seq, bytes⟩ := honest.records.resolved r member
  obtain ⟨packet, told, acks⟩ := honest.told.resolved r member acked
  obtain ⟨q, qSent, rfl⟩ := heard packet told
  obtain ⟨before, isPrefix, window⟩ := other_honest.candid.stamps q qSent
  have named : r.1 ∈ before.map fun packet => packet.1.seq := by
    have same := acks e.tunnel.session
    rw [Prod.mk.injEq] at window
    rw [window.1, window.2] at same
    exact (AckTracker.attests_foldl _).of_peerAcked same
  obtain ⟨packet', member', seq'⟩ := List.mem_map.mp named
  obtain ⟨p', sent', rfl⟩ := other_heard packet' (isPrefix.subset member')
  obtain rfl : p' = p :=
    List.inj_on_of_nodup_map (honest.numbered few).once sent' sent (seq'.trans seq.symm)
  exact ⟨p', sent, fec, seq, bytes, isPrefix.subset member'⟩

end End

namespace Duplex

variable {tx : Config σ} {rx : Config τ} {d d' : Duplex σ τ} {start start' : UInt32}

structure Honest (start start' : UInt32) (d : Duplex σ τ) : Prop where
  left : d.left.Honest start
  right : d.right.Honest start'
  leftHeard : ∀ packet ∈ d.left.heard, ∃ p ∈ d.right.tunnel.sent,
    (p.hdr, p.payload) = packet
  rightHeard : ∀ packet ∈ d.right.heard, ∃ p ∈ d.left.tunnel.sent,
    (p.hdr, p.payload) = packet

theorem Honest.step {e : DuplexEvent} (honest : d.Honest start start')
    (unforged : d.Unforged tx rx e) (stepped : d.step tx rx e = some d') :
    d'.Honest start start' := by
  obtain ⟨left, right, leftHeard, rightHeard⟩ := honest
  cases e with
  | left turn =>
      obtain ⟨e, turned, rfl⟩ := Option.map_eq_some_iff.mp stepped
      obtain ⟨heard, stepped⟩ := End.step_grows turned
      obtain ⟨packets, emits, -⟩ := Tunnel.step_emits stepped
      refine ⟨left.step turned, right, fun packet member => ?_, fun packet member => ?_⟩
      · simp only [heard, List.mem_append] at member
        exact member.elim (leftHeard packet) (unforged packet)
      · obtain ⟨p, sent, same⟩ := rightHeard packet member
        exact ⟨p, emits.sent ▸ List.mem_append_left _ sent, same⟩
  | right turn =>
      obtain ⟨e, turned, rfl⟩ := Option.map_eq_some_iff.mp stepped
      obtain ⟨heard, stepped⟩ := End.step_grows turned
      obtain ⟨packets, emits, -⟩ := Tunnel.step_emits stepped
      refine ⟨left, right.step turned, fun packet member => ?_, fun packet member => ?_⟩
      · obtain ⟨p, sent, same⟩ := leftHeard packet member
        exact ⟨p, emits.sent ▸ List.mem_append_left _ sent, same⟩
      · simp only [heard, List.mem_append] at member
        exact member.elim (rightHeard packet) (unforged packet)

theorem New.honest (left : d.left.New) (right : d.right.New) :
    d.Honest d.left.tunnel.session.nextSeq d.right.tunnel.session.nextSeq :=
  ⟨left.honest, right.honest, by simp [left.heard], by simp [right.heard]⟩

/-- No acknowledgement is of a packet that did not arrive: in every run of two tunnels over
    a network that delivers, repeats, reorders, drops and makes up datagrams, as long as the
    ciphers are not forged and no end draws more than 2^32 numbers, what either end
    retired as acknowledged is a packet it sent and the other end opened. -/
theorem acknowledged_were_opened {events : List DuplexEvent} (left : d.left.New)
    (right : d.right.New) (unforged : Runs.Along (step tx rx) (Unforged tx rx) d events)
    (ran : Runs.run (step tx rx) d events = some d') (few : d'.left.tunnel.seals.length ≤ 2 ^ 32)
    (few' : d'.right.tunnel.seals.length ≤ 2 ^ 32) :
    (∀ r ∈ d'.left.tunnel.resolutions, r.2.1 = true → ∃ p ∈ d'.left.tunnel.sent,
      p.IsFec ∧ p.hdr.seq = r.1 ∧ max p.payload.length 1 = r.2.2.bytes ∧
      (p.hdr, p.payload) ∈ d'.right.heard) ∧
    (∀ r ∈ d'.right.tunnel.resolutions, r.2.1 = true → ∃ p ∈ d'.right.tunnel.sent,
      p.IsFec ∧ p.hdr.seq = r.1 ∧ max p.payload.length 1 = r.2.2.bytes ∧
      (p.hdr, p.payload) ∈ d'.left.heard) := by
  have honest := Runs.invariant_along (Honest _ _) (fun _ _ _ unforged stepped honest =>
    honest.step unforged stepped) unforged ran (New.honest left right)
  exact ⟨honest.left.acknowledged honest.right honest.leftHeard honest.rightHeard few,
    honest.right.acknowledged honest.left honest.rightHeard honest.leftHeard few'⟩

/-! ## A packet and its acknowledgement -/

open Tunnel in
abbrev sampleLeft : Config Unit := sampleConfig .initiatorToResponder .responderToInitiator

open Tunnel in
abbrev sampleRight : Config Unit := sampleConfig .responderToInitiator .initiatorToResponder

open Tunnel in
/-- The two ends of a session that has just begun. -/
def sample : Duplex Unit Unit where
  left := { tunnel := sampleTunnel ⟨1, 2⟩ }
  right := { tunnel := sampleTunnel ⟨1, 2⟩ }

open Tunnel in
/-- One packet goes out and arrives; its acknowledgement comes back. -/
def acknowledgedOnce : List DuplexEvent :=
  let ack := firstWire (Tunnel.run sampleRight (sampleTunnel ⟨1, 2⟩)
    hearsOne)
  [.left (sampleEnv 0 0, .tun [1])] ++ hearsOne.map .right ++
    [.left (sampleEnv 3 0, .datagram ack (sampleAddr 2))]

open Tunnel in
/-- What the turn opens is among the packets sent, where that can be evaluated. -/
def knows (cfg : Config σ) (t : Tunnel σ) (sent : List Sent) (turn : Env × Event) : Bool :=
  (heardOf (t.notes cfg turn.2)).all fun packet => sent.any fun p =>
    decide ((p.hdr, p.payload) = packet)

def checkUnforged (tx : Config σ) (rx : Config τ) (d : Duplex σ τ) : DuplexEvent → Bool
  | .left turn => knows tx d.left.tunnel d.right.tunnel.sent turn
  | .right turn => knows rx d.right.tunnel d.left.tunnel.sent turn

theorem unforged_of_check (tx : Config σ) (rx : Config τ) (d : Duplex σ τ) (e : DuplexEvent)
    (checked : checkUnforged tx rx d e = true) : Unforged tx rx d e := by
  cases e with
  | left turn => simpa [checkUnforged, knows, Unforged, End.Hears] using checked
  | right turn => simpa [checkUnforged, knows, Unforged, End.Hears] using checked

theorem sample_new : sample.left.New ∧ sample.right.New :=
  ⟨⟨rfl, rfl, rfl, rfl, rfl, rfl, rfl⟩, ⟨rfl, rfl, rfl, rfl, rfl, rfl, rfl⟩⟩

open Tunnel in
theorem acknowledgedOnce_unforged : Runs.Along (step sampleLeft sampleRight)
    (Unforged sampleLeft sampleRight) sample acknowledgedOnce :=
  Runs.along_of_check (unforged_of_check _ _) (by decide +kernel)

open Tunnel in
theorem acknowledgedOnce_opened :
    ∃ d', Runs.run (step sampleLeft sampleRight) sample acknowledgedOnce = some d' ∧
    ∃ r ∈ d'.left.tunnel.resolutions, r.2.1 = true ∧ ∃ p ∈ d'.left.tunnel.sent,
    p.IsFec ∧ p.hdr.seq = r.1 ∧ max p.payload.length 1 = r.2.2.bytes ∧
    (p.hdr, p.payload) ∈ d'.right.heard := by
  have evaluated : (Runs.run (step sampleLeft sampleRight) sample acknowledgedOnce).any (fun d =>
      decide (d.left.tunnel.seals.length ≤ 2 ^ 32) &&
        decide (d.right.tunnel.seals.length ≤ 2 ^ 32) && d.left.tunnel.resolutions.any fun r =>
        r.2.1) = true := by
    decide +kernel
  obtain ⟨d', ran, checked⟩ := (Option.any_eq_true _ _).mp evaluated
  simp only [Bool.and_eq_true, decide_eq_true_eq, List.any_eq_true] at checked
  obtain ⟨⟨few, few'⟩, r, member, acked⟩ := checked
  exact ⟨d', ran, r, member, acked,
    (acknowledged_were_opened sample_new.1 sample_new.2 acknowledgedOnce_unforged ran few few').1 r
      member acked⟩

end Duplex

end Rustnies
