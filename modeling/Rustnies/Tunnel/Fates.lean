import Rustnies.Lib.Ledger
import Rustnies.Tunnel.Pacing

/-! # What becomes of a packet from the device

`handle_tun_packet` answers every refusal with the same `false`, and `park_if_paced` asks
the pacer's clock for the reason. A packet that was refused before the pacer was asked, for
its size or by the window, is counted as dropped; when an earlier packet has left the
pacer's deadline ahead, it is parked all the same, and counted or sent again later.
-/

namespace Rustnies

/-- What an offer comes to. `paced` is the one answer that is not the end; `superseded` is
    what the next packet does to a parked one. -/
inductive TunFate where
  | sent
  | congestionDrop
  | mtuDrop
  | sealFailed
  | sendFailed
  | paced
  | superseded
  deriving Repr, DecidableEq

def TunFate.final (fate : TunFate) : Bool := fate != .paced

namespace Tunnel

variable {σ : Type} (cfg : Config σ) (env : Env)

/-- The header of the next data packet. -/
def dataHeader (t : Tunnel σ) : PacketHeader :=
  { (t.nextHeader .data).1 with
    fecGroup := t.groupId
    fecIndex := t.groupIndex
    fecK := t.fecParams.k
    fecM := t.fecParams.m }

/-- The fate of a packet that the gate admitted. -/
def sendFate (t : Tunnel σ) (packet : Bytes) : TunFate :=
  match ((t.nextHeader .data).2.sealPacket cfg t.dataHeader packet).1 with
  | none => .sealFailed
  | some wire =>
      if PATH_MTU < wire.length + OUTER_OVERHEAD then .mtuDrop
      else if env.sendOk wire t.peer then .sent
      else .sendFailed

/-- The fate of a packet that is offered to the gate. -/
def fate (t : Tunnel σ) (packet : Bytes) : TunFate :=
  if MAX_PAYLOAD < packet.length then .mtuDrop
  else if cfg.congestion.sendBudget t.congestion < max packet.length 1 then .congestionDrop
  else if (cfg.congestion.maySend env.now t.congestion (max packet.length 1)).1
    then t.sendFate cfg env packet
  else .paced

/-- The packet is too long or the window is full: the pacer is not asked. -/
def Blocked (t : Tunnel σ) (packet : Bytes) : Prop :=
  MAX_PAYLOAD < packet.length ∨ cfg.congestion.sendBudget t.congestion < max packet.length 1

/-- What the carrier and the counters see of an offer. -/
def Outcome (packet : Bytes) (t t' : Tunnel σ) : TunFate → Prop
  | .sent => t'.dataSent = t.dataSent ++ [packet]
  | .congestionDrop => t'.sent = t.sent ∧
      t'.counters = { t.counters with
        txDroppedCongestion := Counters.succ t.counters.txDroppedCongestion }
  | .mtuDrop => t'.sent = t.sent ∧
      t'.counters = { t.counters with txDroppedMtu := Counters.succ t.counters.txDroppedMtu }
  | .paced =>
      t'.sent = t.sent ∧
        t'.counters = { t.counters with txPaced := Counters.succ t.counters.txPaced }
  | .sealFailed | .sendFailed | .superseded => t'.sent = t.sent ∧ t'.counters = t.counters

variable {cfg env} {allowed : Duration → Prop} {good : σ → Prop} {t t' : Tunnel σ}
  {packet : Bytes}

theorem Outcome.unsent {fate : TunFate} (outcome : Outcome packet t t' fate)
    (other : fate ≠ .sent) :
    t'.dataSent = t.dataSent := by
  have same : t'.sent = t.sent := by
    cases fate with
    | sent => exact absurd rfl other
    | congestionDrop => exact outcome.1
    | mtuDrop => exact outcome.1
    | sealFailed => exact outcome.1
    | sendFailed => exact outcome.1
    | paced => exact outcome.1
    | superseded => exact outcome.1
  rw [dataSent, same]
  rfl

/-! ## The gate and the send path -/

/-- How an offer ends: its fate, what is seen of it, and the calls of the controller. -/
structure Treated (cfg : Config σ) (env : Env) (good : σ → Prop) (t : Tunnel σ)
    (packet : Bytes) (fate : TunFate) (handled : Bool × Tunnel σ) : Prop where
  flag : handled.1 = decide (fate = .sent)
  outcome : Outcome packet t handled.2 fate
  congestion : good t.congestion → good handled.2.congestion
  pendingOut : handled.2.pendingOut = t.pendingOut
  blocked : t.Blocked cfg packet → fate.final = true ∧ fate ≠ .sent ∧
    handled.2.congestion = t.congestion
  paced : fate = .paced → (cfg.congestion.maySend env.now t.congestion (max packet.length 1)).1 =
    false ∧ handled.2.congestion =
    (cfg.congestion.maySend env.now t.congestion (max packet.length 1)).2
  refunded : ¬ t.Blocked cfg packet → fate ≠ .paced → fate ≠ .sent →
    (cfg.congestion.maySend env.now t.congestion (max packet.length 1)).1 = true ∧
    handled.2.congestion = cfg.congestion.refundSendBytes (cfg.congestion.onSendBytes env.now
      (cfg.congestion.maySend env.now t.congestion (max packet.length 1)).2 (max packet.length 1))
        (max packet.length 1)

/-- What the send path makes of an admitted packet: sent, or refunded. -/
structure Dispatched (cfg : Config σ) (good : σ → Prop) (t : Tunnel σ) (packet : Bytes)
    (len : Nat) (fate : TunFate) (handled : Bool × Tunnel σ) : Prop where
  flag : handled.1 = decide (fate = .sent)
  outcome : Outcome packet t handled.2 fate
  congestion : good t.congestion → good handled.2.congestion
  pendingOut : handled.2.pendingOut = t.pendingOut
  final : fate.final = true
  refunded : fate ≠ .sent → handled.2.congestion = cfg.congestion.refundSendBytes
    t.congestion len

theorem sendData_eq (cfg : Config σ) (env : Env) (t : Tunnel σ) (packet : Bytes) (len : Nat) :
    t.sendData cfg env packet len = match (t.nextHeader .data).2.sealPacket cfg
    t.dataHeader packet with
      | (none, mid) => (false, mid.refund cfg len)
      | (some wire, mid) =>
          if PATH_MTU < wire.length + OUTER_OVERHEAD then
            (false, { mid with
              counters.txDroppedMtu := Counters.succ mid.counters.txDroppedMtu }.refund cfg len)
          else if env.sendOk wire mid.peer then
            (true, (mid.noteTransmitted env t.dataHeader packet wire len .data).joinGroup cfg env
              t.dataHeader.fecK packet)
          else (false, mid.refund cfg len) := rfl

theorem sendData_dispatched (preserves : cfg.congestion.PreservesOn allowed good) (env : Env)
    (t : Tunnel σ) (packet : Bytes) (len : Nat) :
    Dispatched cfg good t packet len (t.sendFate cfg env packet)
    (t.sendData cfg env packet len) := by
  rw [sendData_eq, sendFate]
  rcases made : (t.nextHeader .data).2.sealPacket cfg t.dataHeader packet with ⟨wire, mid⟩
  have sealed : Keeps good t mid := sealPacket_keeps made
  obtain rfl : ((t.nextHeader .data).2.sealPacket cfg t.dataHeader packet).2 = mid :=
    congrArg Prod.snd made
  cases wire with
  | none =>
      exact ⟨rfl, ⟨rfl, rfl⟩, fun holds => preserves.refunds _ _ holds, rfl, rfl,
        fun _ => rfl⟩
  | some wire =>
      simp only
      split
      · exact ⟨rfl, ⟨rfl, rfl⟩, fun holds => preserves.refunds _ _ holds, rfl, rfl,
          fun _ => rfl⟩
      · generalize same : ((t.nextHeader .data).2.sealPacket cfg t.dataHeader packet).2 =
          mid at sealed ⊢
        have peer : mid.peer = t.peer := by rw [← same]; rfl
        rw [peer]
        split
        · have joined : Keeps good (mid.noteTransmitted env t.dataHeader packet wire len .data)
              ((mid.noteTransmitted env t.dataHeader packet wire len .data).joinGroup cfg env
                t.dataHeader.fecK packet) := joinGroup_keeps preserves _ _ _
          have recorded : (mid.noteTransmitted env t.dataHeader packet wire len .data).dataSent =
              mid.dataSent ++ [packet] := dataSent_recordSent mid t.dataHeader packet wire
          refine ⟨rfl, ?_, ?_, ?_, rfl, fun other => absurd rfl other⟩
          · exact joined.data.trans (recorded.trans (by rw [sealed.data]))
          · exact fun holds => joined.congestion (sealed.congestion holds)
          · exact joined.pendingOut.trans sealed.pendingOut
        · rw [← same]
          exact ⟨rfl, ⟨rfl, rfl⟩, fun holds => preserves.refunds _ _ holds, rfl, rfl,
            fun _ => rfl⟩

theorem handleTunPacket_treated (preserves : cfg.congestion.PreservesOn allowed good) (env : Env)
    (t : Tunnel σ) (packet : Bytes) :
    Treated cfg env good t packet (t.fate cfg env packet) (t.handleTunPacket cfg env packet) := by
  simp only [handleTunPacket, fate]
  split
  · rename_i long
    refine ⟨rfl, ⟨rfl, rfl⟩, fun holds => holds, rfl, fun _ =>
      ⟨rfl, by decide, rfl⟩, ?_, ?_⟩
    · intro held
      cases held
    · exact fun free => absurd (.inl long) free
  · rename_i short
    split
    · rename_i full
      refine ⟨rfl, ⟨rfl, rfl⟩, fun holds => holds, rfl, fun _ =>
        ⟨rfl, by decide, rfl⟩, ?_, ?_⟩
      · intro held
        cases held
      · exact fun free => absurd (.inr full) free
    · rename_i room
      have free : ¬ t.Blocked cfg packet := fun blocked => blocked.elim short room
      cases admitted : (cfg.congestion.maySend env.now t.congestion (max packet.length 1)).1 with
      | false =>
          refine ⟨rfl, ⟨rfl, rfl⟩, fun holds => preserves.asks _ _ _ holds, rfl,
            fun blocked => absurd blocked free, fun _ => ⟨admitted, rfl⟩,
            fun _ other => absurd rfl other⟩
      | true =>
          have dispatched := sendData_dispatched preserves env { t with
            congestion := cfg.congestion.onSendBytes env.now
              (cfg.congestion.maySend env.now t.congestion (max packet.length 1)).2
                (max packet.length 1) }
            packet (max packet.length 1)
          refine ⟨dispatched.flag, dispatched.outcome, ?_, dispatched.pendingOut, fun blocked =>
            absurd blocked free, ?_, fun _ _ unsent => ⟨admitted, dispatched.refunded unsent⟩⟩
          · exact fun holds =>
              dispatched.congestion (preserves.reserves _ _ _ (preserves.asks _ _ _ holds))
          · intro held
            have final : (t.sendFate cfg env packet).final = true := dispatched.final
            rw [if_pos rfl] at held
            rw [held] at final
            cases final

/-! ## One turn -/

/-- A turn that offers a packet: the packet is treated, and parked when it was not sent
    and the pacer's deadline lies ahead. -/
theorem step_offered (preserves : cfg.congestion.PreservesOn allowed good) {turn : Env × Event}
    (offers : t.offered turn.2 = some packet) : ∃ deadline handled t',
    step cfg t turn = some t' ∧ Treated cfg turn.1 good (t.park none deadline) packet
      (t.fate cfg turn.1 packet) handled ∧ t'.sent = handled.2.sent ∧
    t'.counters = handled.2.counters ∧ t'.congestion = handled.2.congestion ∧
    t'.pendingOut = if handled.1 then none
        else (cfg.congestion.nextSendDeadline turn.1.now handled.2.congestion).map fun _ =>
        packet := by
  obtain ⟨env, e⟩ := turn
  have parked : ∀ (mid : Tunnel σ) after, mid.pendingOut = none →
      ((mid.park mid.pendingOut after).parkIfPaced cfg env packet).sent = mid.sent ∧
      ((mid.park mid.pendingOut after).parkIfPaced cfg env packet).counters = mid.counters ∧
      ((mid.park mid.pendingOut after).parkIfPaced cfg env packet).congestion = mid.congestion ∧
      ((mid.park mid.pendingOut after).parkIfPaced cfg env packet).pendingOut =
        (cfg.congestion.nextSendDeadline env.now mid.congestion).map fun _ => packet := by
    intro mid after free
    have same : (mid.park mid.pendingOut after).congestion = mid.congestion := rfl
    simp only [parkIfPaced, same]
    cases cfg.congestion.nextSendDeadline env.now mid.congestion with
    | none => exact ⟨rfl, rfl, rfl, free⟩
    | some deadline => exact ⟨rfl, rfl, rfl, rfl⟩
  cases exited : t.exit with
  | some exit => simp [offered, exited] at offers
  | none =>
      simp only [offered, exited, Option.isSome_none, Bool.false_eq_true, if_false] at offers
      simp only [step_running _ exited]
      cases e with
      | tun packet' =>
          cases offers
          have treated := handleTunPacket_treated preserves env (t.park none none) packet
          refine ⟨none, _, _, rfl, treated, ?_⟩
          simp only [onTun]
          rcases handled : (t.park none none).handleTunPacket cfg env packet with ⟨_ | _, mid⟩
          · rw [handled] at treated
            exact parked mid mid.pendingDeadline treated.pendingOut
          · rw [handled] at treated
            exact ⟨rfl, rfl, rfl, treated.pendingOut⟩
      | pacerRetry =>
          have treated :=
            handleTunPacket_treated preserves env (t.park none t.pendingDeadline) packet
          refine ⟨t.pendingDeadline, _, _, rfl, treated, ?_⟩
          simp only [offers, Option.isSome_some, if_true, retryPending]
          rcases handled : (t.park none t.pendingDeadline).handleTunPacket cfg env packet
            with ⟨_ | _, mid⟩
          · rw [handled] at treated
            exact parked mid none treated.pendingOut
          · rw [handled] at treated
            exact ⟨rfl, rfl, rfl, treated.pendingOut⟩
      | _ => cases offers

theorem step_good (preserves : cfg.congestion.PreservesOn allowed good)
    (acked : ∀ rtt, rtt ≤ MAX_RTT_SAMPLE → allowed rtt) {turn : Env × Event}
    (told : t.PongAllowed cfg allowed turn) (stepped : step cfg t turn = some t')
    (holds : good t.congestion) : good t'.congestion := by
  cases offers : t.offered turn.2 with
  | none => exact (step_keeps preserves acked told offers stepped).congestion holds
  | some packet =>
      obtain ⟨deadline, handled, mid, reached, treated, -, -, same, -⟩ :=
        step_offered preserves offers
      rw [stepped] at reached
      cases reached
      rw [same]
      exact treated.congestion holds

theorem step_keeps_of_paces (paces : cfg.congestion.Paces good) {turn : Env × Event}
    (quiet : t.offered turn.2 = none) (stepped : step cfg t turn = some t') : Keeps good t t' :=
  step_keeps paces.on_any (fun _ _ => trivial) (fun _ _ _ _ _ _ _ _ _ => trivial) quiet stepped

theorem step_good_of_paces (paces : cfg.congestion.Paces good) {turn : Env × Event}
    (stepped : step cfg t turn = some t') (holds : good t.congestion) : good t'.congestion :=
  step_good paces.on_any (fun _ _ => trivial) (fun _ _ _ _ _ _ _ _ _ => trivial) stepped holds

theorem step_outcome (preserves : cfg.congestion.PreservesOn allowed good) {turn : Env × Event}
    (offers : t.offered turn.2 = some packet) (stepped : step cfg t turn = some t') :
    Outcome packet t t' (t.fate cfg turn.1 packet) := by
  obtain ⟨deadline, handled, mid, reached, treated, sent, counters, -⟩ :=
    step_offered preserves offers
  rw [stepped] at reached
  cases reached
  have outcome := treated.outcome
  have data : t'.dataSent = handled.2.dataSent := by rw [dataSent, sent]; rfl
  cases fated : t.fate cfg turn.1 packet with
  | sent =>
      rw [fated] at outcome
      exact data.trans outcome
  | _ =>
      rw [fated] at outcome
      exact ⟨sent.trans outcome.1, counters.trans outcome.2⟩

theorem parked_of_blocked (preserves : cfg.congestion.PreservesOn allowed good)
    {turn : Env × Event} (offers : t.offered turn.2 = some packet) (blocked : t.Blocked cfg packet)
    (stepped : step cfg t turn = some t') : (t.fate cfg turn.1 packet).final = true ∧
    t'.pendingOut = (cfg.congestion.nextSendDeadline turn.1.now t.congestion).map fun _ =>
    packet := by
  obtain ⟨deadline, handled, mid, reached, treated, -, -, -, parked⟩ :=
    step_offered preserves offers
  rw [stepped] at reached
  cases reached
  obtain ⟨final, unsent, same⟩ := treated.blocked blocked
  refine ⟨final, ?_⟩
  rw [parked, treated.flag, decide_eq_false unsent, same]
  rfl

/-- A packet that the pacer was asked about is parked exactly when the pacer held it back. -/
theorem parked_of_asked (paces : cfg.congestion.Paces good) (holds : good t.congestion)
    {turn : Env × Event} (offers : t.offered turn.2 = some packet)
    (asked : ¬ t.Blocked cfg packet) (stepped : step cfg t turn = some t') :
    t'.pendingOut = if (t.fate cfg turn.1 packet).final then none else some packet := by
  obtain ⟨deadline, handled, mid, reached, treated, -, -, -, parked⟩ :=
    step_offered paces.on_any offers
  rw [stepped] at reached
  cases reached
  have room : max (max packet.length 1) 1 ≤ cfg.congestion.sendBudget t.congestion := by
    have fits := Nat.le_of_not_lt fun full => asked (.inr full)
    omega
  rw [parked, treated.flag]
  by_cases sent : t.fate cfg turn.1 packet = .sent
  · rw [sent]
    rfl
  · rw [decide_eq_false sent, if_neg Bool.false_ne_true]
    by_cases paced : t.fate cfg turn.1 packet = .paced
    · obtain ⟨refused, same⟩ := treated.paced paced
      have ahead := paces.waits turn.1.now t.congestion _ room refused
      obtain ⟨next, found⟩ := Option.isSome_iff_exists.mp ahead
      rw [same, show cfg.congestion.nextSendDeadline turn.1.now
        (cfg.congestion.maySend turn.1.now (t.park none deadline).congestion _).2 =
          some next from found, paced]
      rfl
    · obtain ⟨admitted, same⟩ := treated.refunded asked paced sent
      have none_ahead := paces.restores turn.1.now t.congestion _ holds admitted
      have final : (t.fate cfg turn.1 packet).final = true := bne_iff_ne.mpr paced
      rw [same, final, show cfg.congestion.nextSendDeadline turn.1.now
        (cfg.congestion.refundSendBytes
        (cfg.congestion.onSendBytes turn.1.now
        (cfg.congestion.maySend turn.1.now (t.park none deadline).congestion _).2 _) _) = none
        from none_ahead]
      rfl

/-- A packet that is refused before the pacer is asked finds no deadline ahead. -/
def PacerIdle (cfg : Config σ) (t : Tunnel σ) (turn : Env × Event) : Prop :=
  ∀ packet, t.offered turn.2 = some packet → t.Blocked cfg packet →
    cfg.congestion.nextSendDeadline turn.1.now t.congestion = none

/-- An offered packet stays parked exactly when its fate is not final. -/
theorem parked_of_idle (paces : cfg.congestion.Paces good) (holds : good t.congestion)
    {turn : Env × Event} (idle : t.PacerIdle cfg turn) (offers : t.offered turn.2 = some packet)
    (stepped : step cfg t turn = some t') :
    t'.pendingOut = if (t.fate cfg turn.1 packet).final then none else some packet := by
  by_cases blocked : t.Blocked cfg packet
  · obtain ⟨final, parked⟩ := parked_of_blocked paces.on_any offers blocked stepped
    rw [parked, idle packet offers blocked, final]
    rfl
  · exact parked_of_asked paces holds offers blocked stepped

/-- Write a turn into the ledger: a packet that is read supersedes the parked one, and an
    offered packet meets its fate and is held while the tunnel has it parked. -/
def enter (cfg : Config σ) (t : Tunnel σ) (turn : Env × Event) (t' : Tunnel σ)
    (l : Ledger Bytes TunFate) :
    Ledger Bytes TunFate :=
  match t.offered turn.2 with
  | none => l
  | some packet =>
      let l := match turn.2 with
        | .tun _ => (l.settle .superseded false).add packet
        | _ => l
      l.settle (t.fate cfg turn.1 packet) t'.pendingOut.isSome

/-- The ledger after a run. -/
def ledger (cfg : Config σ) (t : Tunnel σ) (l : Ledger Bytes TunFate) :
    List (Env × Event) → Ledger Bytes TunFate
  | [] => l
  | turn :: turns =>
      match step cfg t turn with
      | none => l
      | some t' => ledger cfg t' (t.enter cfg turn t' l) turns

/-- Every packet that was read has ended once or is the parked one, and the packets that
    the carrier took are the ones that ended so, in their order. -/
structure Books (t : Tunnel σ) (l : Ledger Bytes TunFate) : Prop where
  accounted : l.Accounted TunFate.final
  parked : t.pendingOut = l.heldItem
  sent : t.dataSent = l.picked fun fate => fate == .sent

theorem Books.offer {l : Ledger Bytes TunFate} (books : t.Books l) {e : Event}
    (offers : t.offered e = some packet) :
    ∃ mid : Ledger Bytes TunFate, mid.Accounted TunFate.final ∧ mid.heldItem = some packet ∧
      (mid.picked fun fate => fate == .sent) = t.dataSent ∧
      ∀ (turn : Env × Event) t', turn.2 = e →
        t.enter cfg turn t' l = mid.settle (t.fate cfg turn.1 packet) t'.pendingOut.isSome := by
  cases exited : t.exit with
  | some exit => simp [offered, exited] at offers
  | none =>
      have offers' := offers
      simp only [offered, exited, Option.isSome_none, Bool.false_eq_true, if_false] at offers
      cases e with
      | tun packet' =>
          cases offers
          have superseded : false = !TunFate.superseded.final := rfl
          have settled := books.accounted.settle superseded
          refine ⟨(l.settle .superseded false).add packet,
            settled.add (l.held_settle_false _) packet, Ledger.heldItem_add _ _, ?_, ?_⟩
          · rw [Ledger.picked_add settled.known, l.picked_settle_other rfl, books.sent]
          · intro turn t' same
            simp only [enter, same, offers']
      | pacerRetry =>
          refine ⟨l, books.accounted, books.parked.symm.trans offers, books.sent.symm, ?_⟩
          intro turn t' same
          simp only [enter, same, offers']
      | _ => cases offers

theorem Books.step {l : Ledger Bytes TunFate} (books : t.Books l)
    (paces : cfg.congestion.Paces good) (holds : good t.congestion) {turn : Env × Event}
    (idle : t.PacerIdle cfg turn) (stepped : Tunnel.step cfg t turn = some t') :
    t'.Books (t.enter cfg turn t' l) := by
  cases offers : t.offered turn.2 with
  | none =>
      have keeps := step_keeps_of_paces paces offers stepped
      simp only [enter, offers]
      exact ⟨books.accounted, keeps.pendingOut.trans books.parked, keeps.data.trans books.sent⟩
  | some packet =>
      obtain ⟨mid, accounted, held, sent, entered⟩ := books.offer offers
      have parked := parked_of_idle paces holds idle offers stepped
      have outcome := step_outcome paces.on_any offers stepped
      have keeps : t'.pendingOut.isSome = !(t.fate cfg turn.1 packet).final := by
        rw [parked]
        cases (t.fate cfg turn.1 packet).final <;> rfl
      rw [entered turn t' rfl]
      refine ⟨accounted.settle keeps, ?_, ?_⟩
      · rw [Ledger.heldItem_settle, keeps, held, parked]
        cases (t.fate cfg turn.1 packet).final <;> rfl
      · rw [Ledger.picked_settle held, sent]
        by_cases took : t.fate cfg turn.1 packet = .sent
        · rw [took] at outcome ⊢
          exact outcome
        · rw [outcome.unsent took, if_neg (by simpa using took), List.append_nil]

theorem Books.run {l : Ledger Bytes TunFate} (paces : cfg.congestion.Paces good)
    {turns : List (Env × Event)} (holds : good t.congestion)
    (idle : Runs.Along (Tunnel.step cfg) (PacerIdle cfg) t turns)
    (ran : Tunnel.run cfg t turns = some t') (books : t.Books l) :
    t'.Books (ledger cfg t l turns) := by
  induction turns generalizing t l with
  | nil =>
      cases ran
      exact books
  | cons turn turns ih =>
      obtain ⟨mid, stepped, rest⟩ := Runs.run_cons_eq_some.mp ran
      obtain ⟨now, later⟩ := Runs.along_cons.mp idle
      have next := ih (step_good_of_paces paces stepped holds) (later mid stepped) rest
        (books.step paces holds now stepped)
      simpa only [ledger, stepped] using next

section Reno

variable {F : Type} {f64 : Floating F} {cfg : Config (CongestionController F)}

/-- A tunnel without parity, so that the window is filled by packets from the device. -/
def plainStart : Tunnel (CongestionController ℚ) :=
  renoStart Floating.exact sampleRenoConfig ⟨1, 0, 0, 0⟩ (sampleAddr 1)
    (.new 7 .initiator) 1400 0

/-- One packet is sent, one is parked for the pacer, and a third supersedes the second, is
    parked too and is sent. -/
def pacedTurns : List (Env × Event) :=
  [(sampleEnv 0 0, .tun [1]), (sampleEnv 1 0, .tun [2]), (sampleEnv 2 0, .tun [3]),
    (sampleEnv 1000000 0, .pacerRetry)]

end Reno

end Tunnel

end Rustnies
