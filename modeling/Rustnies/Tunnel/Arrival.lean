import Rustnies.Tunnel.Emission

/-! # What an authenticated packet does

The receive path as a small machine. `RxState` is what data and parity packets
act on: the open groups and the packets written to the TUN device. Every turn of
the loop acts on it as `RxState.react` says, whatever the rest of the tunnel does,
so a result about all runs of a tunnel's receive side is a result about runs of
this machine.
-/

namespace Rustnies

variable {σ : Type}

def PacketHeader.fecPacket (hdr : PacketHeader) (payload : Bytes) : FecPacket where
  packetType := hdr.packetType
  group := hdr.fecGroup
  index := hdr.fecIndex
  k := hdr.fecK
  m := hdr.fecM
  payload := payload

/-- The packet goes into a group at the receiver. -/
def FecPacket.Grouped (p : FecPacket) : Prop :=
  (p.packetType = .data ∨ p.packetType = .fec) ∧ p.m ≠ 0

instance (p : FecPacket) : Decidable p.Grouped := inferInstanceAs (Decidable (_ ∧ _))

/-! ## One arrival at a group -/

namespace RxGroup

/-- Recover the group if it has enough symbols: the group after it, and the sources
    that recovery writes. -/
def tryRecover (scheme : FecScheme) (g : RxGroup) (k : Nat) : RxGroup × List (Nat × Bytes) :=
  if !g.decoded && k ≤ g.present then
    match scheme.decode g.k.toNat g.m.toNat g.symbols with
    | .error _ => (g, [])
    | .ok recovered => (g.markDecoded, g.lost recovered)
  else (g, [])

def arrive (scheme : FecScheme) (now : Instant) (g : RxGroup) (p : FecPacket) :
    Option (RxGroup × List (Nat × Bytes)) :=
  let g := g.refresh now
  if p.k.toNat + p.m.toNat ≤ p.index.toNat then some (g, [])
  else (g.store p.index.toNat p.k.toNat p.payload (p.packetType = .data)).map fun g =>
    g.tryRecover scheme p.k.toNat

section Arrive

variable {scheme : FecScheme} {now : Instant} {g : RxGroup} {p : FecPacket}

theorem arrive_outside (outside : p.k.toNat + p.m.toNat ≤ p.index.toNat) :
    g.arrive scheme now p = some (g.refresh now, []) := if_pos outside

theorem arrive_inside (inside : ¬ p.k.toNat + p.m.toNat ≤ p.index.toNat) :
    g.arrive scheme now p = ((g.refresh now).store p.index.toNat p.k.toNat p.payload
      (p.packetType = .data)).map fun g => g.tryRecover scheme p.k.toNat := if_neg inside

end Arrive

end RxGroup

/-! ## The receive side as a machine -/

structure RxState where
  groups : Table UInt16 RxGroup
  writes : List TunWrite

namespace RxState

/-- The group a packet goes to. -/
def target (r : RxState) (now : Instant) (p : FecPacket) : RxGroup :=
  (r.groups.lookup p.group).getD (.new p.k p.m now)

def record (scheme : FecScheme) (now : Instant) (r : RxState) (p : FecPacket) : Option RxState :=
  ((r.target now p).arrive scheme now p).map fun (g, lost) =>
    { groups := r.groups.insert p.group g
      writes := r.writes ++ lost.map fun (i, sym) => ⟨.recovered p.group i, sym⟩ }

/-- Whether a data packet is suppressed as already delivered. -/
def suppresses (r : RxState) (p : FecPacket) : Bool :=
  match r.groups.lookup p.group with
  | none => false
  | some entry => if entry.k ≤ p.index then false else entry.delivered.getD p.index.toNat false

def write (r : RxState) (hdr : PacketHeader) (payload : Bytes) : RxState :=
  { r with writes := r.writes ++ [⟨.data hdr, payload⟩] }

def acceptData (scheme : FecScheme) (now : Instant) (r : RxState) (hdr : PacketHeader)
    (payload : Bytes) :
    Option RxState :=
  if hdr.fecM = 0 then some (r.write hdr payload)
  else if r.suppresses (hdr.fecPacket payload) then r.record scheme now (hdr.fecPacket payload)
  else (r.write hdr payload).record scheme now (hdr.fecPacket payload)

def accept (scheme : FecScheme) (now : Instant) (r : RxState) (hdr : PacketHeader)
    (payload : Bytes) :
    Option RxState :=
  if hdr.packetType = .data then r.acceptData scheme now hdr payload
  else if hdr.packetType = .fec ∧ hdr.fecM ≠ 0 then r.record scheme now (hdr.fecPacket payload)
  else some r

/-- The write that a packet of a group causes by itself. -/
def writeOwn (r : RxState) (hdr : PacketHeader) (payload : Bytes) : RxState :=
  if hdr.packetType = .data ∧ r.suppresses (hdr.fecPacket payload) = false
    then r.write hdr payload
  else r

@[simp]
theorem writeOwn_groups (r : RxState) (hdr : PacketHeader) (payload : Bytes) :
    (r.writeOwn hdr payload).groups = r.groups := by
  unfold writeOwn
  split <;> rfl

theorem accept_grouped {scheme : FecScheme} {now : Instant} {r : RxState} {hdr : PacketHeader}
    {payload : Bytes} (grouped : (hdr.fecPacket payload).Grouped) :
    r.accept scheme now hdr payload =
      (r.writeOwn hdr payload).record scheme now (hdr.fecPacket payload) := by
  obtain ⟨kind, parity⟩ := grouped
  have hasParity : hdr.fecM ≠ 0 := parity
  rcases kind with data | fec
  · have isData : hdr.packetType = .data := data
    simp only [accept, acceptData, writeOwn, isData, if_true, if_neg hasParity, true_and]
    cases r.suppresses (hdr.fecPacket payload) <;> rfl
  · have isFec : hdr.packetType = .fec := fec
    have notData : hdr.packetType ≠ .data := by rw [isFec]; nofun
    rw [accept, if_neg notData, if_pos ⟨isFec, hasParity⟩, writeOwn, if_neg fun data =>
      notData data.1]

/-- A data packet without parity is written, and any other packet outside the groups
    does nothing. -/
theorem accept_ungrouped {scheme : FecScheme} {now : Instant} {r : RxState} {hdr : PacketHeader}
    {payload : Bytes} (ungrouped : ¬ (hdr.fecPacket payload).Grouped) :
    r.accept scheme now hdr payload =
      some (if hdr.packetType = .data then r.write hdr payload else r) := by
  unfold accept
  by_cases data : hdr.packetType = .data
  · have noParity : hdr.fecM = 0 := by
      by_contra parity
      exact ungrouped ⟨.inl data, parity⟩
    rw [if_pos data, if_pos data, acceptData, if_pos noParity]
  · rw [if_neg data, if_neg data, if_neg fun fec => ungrouped ⟨.inr fec.1, fec.2⟩]

def evict (now : Instant) (r : RxState) : RxState :=
  { r with groups := r.groups.retain fun _ group => now < group.deadline }

/-- What an event does to the receive side of the session `sid`. -/
def react (cfg : Config σ) (sid : SessionId) (now : Instant) (r : RxState) :
    Event → Option RxState
  | .datagram bytes _ =>
      match cfg.openDatagram sid bytes with
      | .error _ => some r
      | .ok (hdr, payload) => r.accept cfg.fec now hdr payload
  | .fecTick => some (r.evict now)
  | _ => some r

end RxState

namespace Tunnel

variable {cfg : Config σ} {env : Env} {t t' : Tunnel σ}

def rxState (t : Tunnel σ) : RxState := ⟨t.rxGroups, t.tunWrites⟩

theorem SameRx.rxState (same : SameRx t t') : t'.rxState = t.rxState := by
  rw [Tunnel.rxState, same.rxGroups, same.tunWrites]
  rfl

/-- Replace the receive side, and the counters. -/
def withRx (t : Tunnel σ) (r : RxState) (counters : Counters) : Tunnel σ :=
  { t with rxGroups := r.groups, tunWrites := r.writes, counters := counters }

/-- Count the recovered sources that the TUN device took. -/
def countRecovered (env : Env) (t : Tunnel σ) (lost : List (Nat × Bytes)) : Counters :=
  { t.counters with
    fecRecovered :=
      t.counters.fecRecovered + (lost.countP fun (_, sym) => env.tunSendOk sym).toUInt64 }

theorem countRecovered_nil (env : Env) (t : Tunnel σ) : t.countRecovered env [] = t.counters := by
  have same : t.counters.fecRecovered + (0 : Nat).toUInt64 = t.counters.fecRecovered :=
    UInt64.add_zero _
  rw [countRecovered, List.countP_nil, same]

/-- `record_rx_symbol` and `recover_group` together are one arrival. -/
theorem recordRxSymbol_eq (cfg : Config σ) (env : Env) (t : Tunnel σ) (hdr : PacketHeader)
    (payload : Bytes) (isData : Bool) (kind : isData = decide (hdr.packetType = .data)) :
    t.recordRxSymbol cfg env hdr payload isData =
      ((t.rxState.target env.now (hdr.fecPacket payload)).arrive cfg.fec env.now
        (hdr.fecPacket payload)).map fun (g, lost) =>
        t.withRx ⟨t.rxGroups.insert hdr.fecGroup g,
          t.tunWrites ++ lost.map fun (i, sym) => ⟨.recovered hdr.fecGroup i, sym⟩⟩
          (t.countRecovered env lost) := by
  have untouched : ∀ g, t.withRx ⟨t.rxGroups.insert hdr.fecGroup g, t.tunWrites ++ []⟩
      (t.countRecovered env []) = { t with rxGroups := t.rxGroups.insert hdr.fecGroup g } := by
    intro g
    rw [List.append_nil, countRecovered_nil]
    rfl
  subst kind
  by_cases outside : hdr.fecK.toNat + hdr.fecM.toNat ≤ hdr.fecIndex.toNat
  · have outside' : (hdr.fecPacket payload).k.toNat + (hdr.fecPacket payload).m.toNat ≤
        (hdr.fecPacket payload).index.toNat := outside
    rw [RxGroup.arrive_outside outside']
    simp only [recordRxSymbol, if_pos outside, Option.map_some, List.map_nil, untouched]
    rfl
  · have inside : ¬ (hdr.fecPacket payload).k.toNat + (hdr.fecPacket payload).m.toNat ≤
        (hdr.fecPacket payload).index.toNat := outside
    rw [RxGroup.arrive_inside inside, Option.map_map]
    simp only [recordRxSymbol, if_neg outside]
    refine congrArg₂ Option.map (funext fun g => ?_) rfl
    have own : (hdr.fecPacket payload).k = hdr.fecK := rfl
    simp only [Function.comp_apply, own, RxGroup.tryRecover]
    by_cases ready : (!g.decoded && decide (hdr.fecK.toNat ≤ g.present)) = true
    · have fresh : g.decoded = false := by
        cases decoded : g.decoded with
        | false => rfl
        | true => simp [decoded] at ready
      simp only [if_pos ready]
      simp only [recoverGroup, AList.lookup_insert, fresh, Bool.false_eq_true, if_false]
      cases cfg.fec.decode g.k.toNat g.m.toNat g.symbols with
      | error e => simp only [List.map_nil, untouched]
      | ok recovered =>
          simp only [AList.insert_insert]
          rfl
    · simp only [if_neg ready, List.map_nil, untouched]

/-- Only the receive side and the counters changed. -/
def RxOnly (t t' : Tunnel σ) : Prop := ∃ r counters, t' = t.withRx r counters

/-- The packet acts on the receive side as the machine says, and on nothing else. -/
structure ActsOn (t : Tunnel σ) (outcome : Option (Tunnel σ)) (r : Option RxState) : Prop where
  rx : outcome.map rxState = r
  only : ∀ t', outcome = some t' → RxOnly t t'

theorem recordRxSymbol_acts (cfg : Config σ) (env : Env) (t : Tunnel σ) (hdr : PacketHeader)
    (payload : Bytes) (isData : Bool) (kind : isData = decide (hdr.packetType = .data)) :
    ActsOn t (t.recordRxSymbol cfg env hdr payload isData)
      (t.rxState.record cfg.fec env.now (hdr.fecPacket payload)) := by
  rw [recordRxSymbol_eq cfg env t hdr payload isData kind]
  constructor
  · rw [Option.map_map]
    rfl
  · intro t' done
    obtain ⟨r, -, rfl⟩ := Option.map_eq_some_iff.mp done
    exact ⟨_, _, rfl⟩

theorem handleData_acts (cfg : Config σ) (env : Env) (t : Tunnel σ) {hdr : PacketHeader}
    (data : hdr.packetType = .data) (payload : Bytes) :
    ActsOn t (t.handleData cfg env hdr payload)
      (t.rxState.acceptData cfg.fec env.now hdr payload) := by
  have kind : true = decide (hdr.packetType = .data) := by rw [data]; rfl
  have known : t.isSourceDelivered hdr.fecGroup hdr.fecIndex =
      t.rxState.suppresses (hdr.fecPacket payload) := rfl
  have written : ∀ {outcome r}, ActsOn (t.writeTun ⟨.data hdr, payload⟩) outcome r → ActsOn
    t outcome r := by
    intro outcome r acts
    refine ⟨acts.rx, fun t' done => ?_⟩
    obtain ⟨r, counters, rfl⟩ := acts.only t' done
    exact ⟨r, counters, rfl⟩
  unfold handleData RxState.acceptData
  rw [known]
  by_cases parity : hdr.fecM = 0
  · simp only [parity, UInt8.lt_irrefl, decide_false, Bool.false_and, Bool.false_eq_true,
      if_false, if_true]
    exact ⟨rfl, fun t' done =>
      ⟨t.rxState.write hdr payload, t.counters, (Option.some.inj done).symm⟩⟩
  · have positive : 0 < hdr.fecM := UInt8.pos_iff_ne_zero.mpr parity
    simp only [parity, positive, decide_true, Bool.true_and, if_true, if_false]
    split
    · exact recordRxSymbol_acts cfg env t hdr payload true kind
    · exact written (recordRxSymbol_acts cfg env _ hdr payload true kind)

theorem handleParity_acts (cfg : Config σ) (env : Env) (t : Tunnel σ) {hdr : PacketHeader}
    (fec : hdr.packetType = .fec) (payload : Bytes) :
    ActsOn t (t.handleParity cfg env hdr payload)
      (t.rxState.accept cfg.fec env.now hdr payload) := by
  have kind : false = decide (hdr.packetType = .data) := by rw [fec]; rfl
  have notData : hdr.packetType ≠ .data := by rw [fec]; nofun
  unfold handleParity RxState.accept
  rw [if_neg notData]
  by_cases parity : hdr.fecM = 0
  · simp only [parity, if_true, ne_eq, not_true_eq_false, and_false, if_false]
    exact ⟨rfl, fun t' done => ⟨t.rxState, t.counters, (Option.some.inj done).symm⟩⟩
  · simp only [parity, fec, if_false, ne_eq, not_false_eq_true, and_self, if_true]
    exact recordRxSymbol_acts cfg env t hdr payload false kind

theorem RxOnly.signals (only : RxOnly t t') : Signals cfg t t' := by
  obtain ⟨r, counters, rfl⟩ := only
  exact .of_same rfl rfl rfl rfl ⟨rfl, rfl, rfl⟩

/-! ## One authenticated packet -/

theorem observePeerAcks_controls (cfg : Config σ) (env : Env) (t : Tunnel σ)
    (hdr : PacketHeader) :
    Controls cfg t (t.observePeerAcks cfg env hdr) := by
  unfold observePeerAcks
  split
  · have observed : Controls cfg t
        { t with session := t.session.observeAcks hdr.ackSeq hdr.ackBitmap } :=
      .of_same rfl rfl rfl rfl ⟨rfl, rfl, rfl, rfl, rfl, rfl⟩ ⟨rfl, rfl, rfl⟩
    refine (observed.trans (reconcilePeerAcks_controls cfg env _)).trans ?_
    simp only
    split <;> exact .of_same rfl rfl rfl rfl ⟨rfl, rfl, rfl, rfl, rfl, rfl⟩ ⟨rfl, rfl, rfl⟩
  · exact .refl t

theorem noteReceived_controls (cfg : Config σ) (env : Env) (t : Tunnel σ) (hdr : PacketHeader) :
    Controls cfg t (t.noteReceived cfg env hdr) := by
  simp only [noteReceived]
  split
  · split
    · refine Controls.trans ?_ (sendPacket_controls _ .ack (by decide) [])
      exact .of_same rfl rfl rfl rfl ⟨rfl, rfl, rfl, rfl, rfl, rfl⟩ ⟨rfl, rfl, rfl⟩
    · exact .of_same rfl rfl rfl rfl ⟨rfl, rfl, rfl, rfl, rfl, rfl⟩ ⟨rfl, rfl, rfl⟩
  · exact .of_same rfl rfl rfl rfl ⟨rfl, rfl, rfl, rfl, rfl, rfl⟩ ⟨rfl, rfl, rfl⟩

/-- The parts of the state that only roaming and the end of the loop change. -/
structure SamePeer (t t' : Tunnel σ) : Prop where
  peer : t'.peer = t.peer
  roamSignals : t'.roamSignals = t.roamSignals
  exit : t'.exit = t.exit

/-- What the handler of a packet does beside its effect on the receive side. -/
structure Handles (cfg : Config σ) (kind : PacketType) (t : Tunnel σ)
    (outcome : Option (Tunnel σ)) (r : Option RxState) : Prop where
  rx : outcome.map rxState = r
  signals : ∀ t', outcome = some t' → Signals cfg t t' ∧ SamePeer t t'
  closing : ∀ t', outcome = some t' → kind ≠ .close → t'.closing = t.closing

theorem Controls.handles (controls : Controls cfg t t') (kind : PacketType) :
    Handles cfg kind t (some t') (some t.rxState) := by
  refine ⟨congrArg some controls.rx.rxState, fun _ done => ?_, fun _ done _ => ?_⟩
  · cases done
    exact ⟨controls.toSignals, controls.rx.peer, controls.rx.roamSignals, controls.rx.exit⟩
  · cases done
    exact controls.rx.closing

theorem ActsOn.handles {outcome : Option (Tunnel σ)} {r : Option RxState}
    (acts : ActsOn t outcome r) (kind : PacketType) : Handles cfg kind t outcome r := by
  refine ⟨acts.rx, fun t' done => ⟨(acts.only t' done).signals, ?_⟩, fun t' done _ => ?_⟩
  · obtain ⟨r, counters, rfl⟩ := acts.only t' done
    exact ⟨rfl, rfl, rfl⟩
  · obtain ⟨r, counters, rfl⟩ := acts.only t' done
    rfl

theorem Handles.after {kind : PacketType} {outcome : Option (Tunnel σ)} {r : Option RxState}
    (before : Controls cfg t t') (handles : Handles cfg kind t' outcome r) :
    Handles cfg kind t outcome r := by
  refine ⟨handles.rx, fun final done => ?_, fun final done open_ => ?_⟩
  · obtain ⟨signals, same⟩ := handles.signals final done
    exact ⟨before.toSignals.trans signals, same.peer.trans before.rx.peer,
      same.roamSignals.trans before.rx.roamSignals, same.exit.trans before.rx.exit⟩
  · exact (handles.closing final done open_).trans before.rx.closing

theorem handlePong_controls (cfg : Config σ) (env : Env) (t : Tunnel σ) (payload : Bytes) :
    Controls cfg t (t.handlePong cfg env payload) := by
  simp only [handlePong]
  split
  · exact .refl t
  · split
    · exact .of_same rfl rfl rfl rfl ⟨rfl, rfl, rfl, rfl, rfl, rfl⟩ ⟨rfl, rfl, rfl⟩
    · exact .refl t

theorem dispatch_handles (cfg : Config σ) (env : Env) (t : Tunnel σ) (hdr : PacketHeader)
    (payload : Bytes) : Handles cfg hdr.packetType t (t.dispatch cfg env hdr payload)
      (t.rxState.accept cfg.fec env.now hdr payload) := by
  have other : hdr.packetType ≠ .data → hdr.packetType ≠ .fec →
      t.rxState.accept cfg.fec env.now hdr payload = some t.rxState := by
    intro notData notFec
    rw [RxState.accept, if_neg notData, if_neg fun fec => notFec fec.1]
  cases kind : hdr.packetType with
  | data =>
      simp only [dispatch, kind, RxState.accept, if_true]
      exact (handleData_acts cfg env t kind payload).handles .data
  | fec =>
      simp only [dispatch, kind]
      exact (handleParity_acts cfg env t kind payload).handles .fec
  | ping =>
      rw [other (by rw [kind]; nofun) (by rw [kind]; nofun)]
      simp only [dispatch, kind]
      exact (sendPacket_controls t .pong (by decide) payload).handles .ping
  | pong =>
      rw [other (by rw [kind]; nofun) (by rw [kind]; nofun)]
      simp only [dispatch, kind]
      exact (handlePong_controls cfg env t payload).handles .pong
  | close =>
      rw [other (by rw [kind]; nofun) (by rw [kind]; nofun)]
      simp only [dispatch, kind]
      refine ⟨rfl, fun t' done => ?_, fun _ _ other => absurd rfl other⟩
      cases done
      exact ⟨.of_same rfl rfl rfl rfl ⟨rfl, rfl, rfl⟩, rfl, rfl, rfl⟩
  | _ =>
      rw [other (by rw [kind]; nofun) (by rw [kind]; nofun)]
      simp only [dispatch, kind]
      exact (Controls.refl t).handles _

theorem followPeer_signals (cfg : Config σ) (t : Tunnel σ) (source : SocketAddr) :
    Signals cfg t (t.followPeer cfg source) := by
  unfold followPeer
  split <;> exact .of_same rfl rfl rfl rfl ⟨rfl, rfl, rfl⟩

theorem followPeer_congr (cfg : Config σ) (source : SocketAddr) (peer : t'.peer = t.peer)
    (roamSignals : t'.roamSignals = t.roamSignals) (id : t'.session.id = t.session.id) :
    (t'.followPeer cfg source).peer = (t.followPeer cfg source).peer ∧
    (t'.followPeer cfg source).roamSignals = (t.followPeer cfg source).roamSignals := by
  unfold followPeer
  rw [peer, roamSignals, id]
  split
  · exact ⟨rfl, rfl⟩
  · exact ⟨peer, roamSignals⟩

theorem followPeer_rx (cfg : Config σ) (t : Tunnel σ) (source : SocketAddr) :
    (t.followPeer cfg source).rxState = t.rxState ∧ (t.followPeer cfg source).exit = t.exit ∧
    (t.followPeer cfg source).closing = t.closing := by
  unfold followPeer
  split <;> exact ⟨rfl, rfl, rfl⟩

/-- What an authenticated packet from `source` does beside its effect on the receive
    side. -/
structure Accepted (cfg : Config σ) (kind : PacketType) (t : Tunnel σ) (source : SocketAddr)
    (t' : Tunnel σ) : Prop where
  signals : Signals cfg t t'
  peer : t'.peer = (t.followPeer cfg source).peer
  roamSignals : t'.roamSignals = (t.followPeer cfg source).roamSignals
  exit : t'.exit = t.exit
  closing : kind ≠ .close → t'.closing = t.closing

theorem acceptPacket_spec (cfg : Config σ) (env : Env) (t : Tunnel σ) (source : SocketAddr)
    (hdr : PacketHeader) (payload : Bytes) :
    (t.acceptPacket cfg env source hdr payload).map rxState =
      t.rxState.accept cfg.fec env.now hdr payload ∧
    ∀ t', t.acceptPacket cfg env source hdr payload = some t' → Accepted cfg hdr.packetType t
    source t' := by
  have acks := observePeerAcks_controls cfg env t hdr
  have noted :=
    noteReceived_controls cfg env ((t.observePeerAcks cfg env hdr).followPeer cfg source) hdr
  obtain ⟨packets, emits, -⟩ := acks.emits
  obtain ⟨peer, roamSignals⟩ :=
    followPeer_congr cfg source acks.rx.peer acks.rx.roamSignals emits.id
  obtain ⟨sameRx, sameExit, sameClosing⟩ :=
    followPeer_rx cfg (t.observePeerAcks cfg env hdr) source
  -- the state at the replay check, and what came before it
  have finish : ∀ {outcome r}, Handles cfg hdr.packetType
      (((t.observePeerAcks cfg env hdr).followPeer cfg source).noteReceived cfg env hdr) outcome
        r → outcome.map rxState = r ∧
      ∀ t', outcome = some t' → Accepted cfg hdr.packetType t source t' := by
    intro outcome r handles
    obtain ⟨rx, rest, open_⟩ := Handles.after noted handles
    refine ⟨rx, fun t' done => ?_⟩
    obtain ⟨signals, same⟩ := rest t' done
    exact ⟨(acks.toSignals.trans (followPeer_signals cfg _ source)).trans signals,
      same.peer.trans peer, same.roamSignals.trans roamSignals,
      (same.exit.trans sameExit).trans acks.rx.exit,
      fun kind => ((open_ t' done kind).trans sameClosing).trans acks.rx.closing⟩
  have start :
    (((t.observePeerAcks cfg env hdr).followPeer cfg source).noteReceived cfg env hdr).rxState =
      t.rxState := by
    rw [noted.rx.rxState, sameRx, acks.rx.rxState]
  simp only [acceptPacket]
  generalize (((t.observePeerAcks cfg env hdr).followPeer cfg source).noteReceived cfg env
    hdr) = mid at finish start
  rw [← start]
  have counted : ∀ session : Session, session.id = mid.session.id →
      session.nextSeq = mid.session.nextSeq →
      Controls cfg mid ({ mid with session := session }.countReceived payload) :=
      fun session id next =>
    .of_same id next rfl rfl ⟨rfl, rfl, rfl, rfl, rfl, rfl⟩ ⟨rfl, rfl, rfl⟩
  split
  · rename_i reliable
    have id := Session.receiveReliable_id mid.session hdr.seq
    have next := Session.receiveReliable_nextSeq mid.session hdr.seq
    split
    · -- a duplicate: reliable packets are no packets of a group
      rename_i session duplicate
      rw [duplicate] at id next
      have silent : mid.rxState.accept cfg.fec env.now hdr payload = some mid.rxState := by
        rw [RxState.accept, if_neg, if_neg]
        · exact fun fec => by rw [fec.1] at reliable; exact absurd reliable (by decide)
        · exact fun data => by rw [data] at reliable; exact absurd reliable (by decide)
      have kept : Controls cfg mid { mid with session := session } :=
        .of_same id next rfl rfl ⟨rfl, rfl, rfl, rfl, rfl, rfl⟩ ⟨rfl, rfl, rfl⟩
      rw [silent]
      exact finish (kept.handles _)
    · rename_i session fresh
      rw [fresh] at id next
      exact finish ((dispatch_handles cfg env _ hdr payload).after (counted session id next))
  · exact finish ((dispatch_handles cfg env _ hdr payload).after (counted mid.session rfl rfl))

/-! ## One turn of the loop -/

theorem step_exited (turn : Env × Event) (exited : t.exit.isSome) : step cfg t turn = some t :=
  if_pos exited

theorem step_running (turn : Env × Event) (running : t.exit = none) :
    step cfg t turn = t.handleEvent cfg turn.1 turn.2 := by
  rw [step, running, Option.isSome_none, if_neg Bool.false_ne_true]

/-- The address the tunnel follows after an event: the source of a datagram that
    opened. -/
def followed (cfg : Config σ) (t : Tunnel σ) : Event → Tunnel σ
  | .datagram bytes source =>
      match cfg.openDatagram t.session.id bytes with
      | .error _ => t
      | .ok _ => t.followPeer cfg source
  | _ => t

/-- What one turn does, on the three sides of the tunnel. -/
structure TurnSpec (cfg : Config σ) (t : Tunnel σ) (env : Env) (e : Event)
    (outcome : Option (Tunnel σ)) : Prop where
  rx : outcome.map rxState = t.rxState.react cfg t.session.id env.now e
  sends : ∀ t', outcome = some t' → ∃ packets, Emits cfg t packets t' ∧
    GroupStep cfg t packets t'
  peer : ∀ t', outcome = some t' → t'.peer = (t.followed cfg e).peer ∧
    t'.roamSignals = (t.followed cfg e).roamSignals

theorem TurnSpec.of_transmits {packets : List Sent} {e : Event} (sends : Transmits cfg t packets t')
    (silent : t.rxState.react cfg t.session.id env.now e = some t.rxState)
    (still : t.followed cfg e = t) : TurnSpec cfg t env e (some t') where
  rx := silent.symm ▸ congrArg some sends.rx.rxState
  sends := fun final done => by
    cases done
    exact ⟨packets, sends.emits, sends.moves⟩
  peer := fun final done => by
    cases done
    rw [still]
    exact ⟨sends.rx.peer, sends.rx.roamSignals⟩

theorem TurnSpec.of_controls {e : Event} (controls : Controls cfg t t') (exit : Option TunnelExit)
    (silent : t.rxState.react cfg t.session.id env.now e = some t.rxState)
    (still : t.followed cfg e = t) : TurnSpec cfg t env e (some { t' with exit := exit }) where
  rx := silent.symm ▸ congrArg some controls.rx.rxState
  sends := fun final done => by
    cases done
    obtain ⟨packets, emits, control⟩ := controls.emits
    have left : Emits cfg t' [] { t' with exit := exit } := .of_same rfl rfl rfl rfl
    exact ⟨packets ++ [], emits.trans left, .idle (by simpa using control)
      (controls.group.trans ⟨rfl, rfl, rfl⟩)⟩
  peer := fun final done => by
    cases done
    rw [still]
    exact ⟨controls.rx.peer, controls.rx.roamSignals⟩

theorem datagram_spec (cfg : Config σ) (env : Env) (t : Tunnel σ) (bytes : Bytes)
    (source : SocketAddr) :
    TurnSpec cfg t env (.datagram bytes source)
    (t.handleEvent cfg env (.datagram bytes source)) := by
  -- leaving the loop on `Close` touches nothing that the specification names
  have left : ∀ t' : Tunnel σ, ∃ exit,
      (if t'.closing then { t' with exit := some .peerClosed } else t') =
        { t' with exit := exit } := by
    intro t'
    split
    · exact ⟨_, rfl⟩
    · exact ⟨t'.exit, rfl⟩
  cases opened : cfg.openDatagram t.session.id bytes with
  | error e =>
      have silent : t.rxState.react cfg t.session.id env.now (.datagram bytes source) =
        some t.rxState := by
        simp only [RxState.react, opened]
      have still : t.followed cfg (.datagram bytes source) = t := by
        simp only [followed, opened]
      obtain ⟨exit, same⟩ := left t
      simp only [handleEvent, handleUdpDatagram, opened, Option.map_some, same]
      exact .of_controls (.refl t) exit silent still
  | ok packet =>
      obtain ⟨rx, accepted⟩ := acceptPacket_spec cfg env t source packet.1 packet.2
      simp only [handleEvent, handleUdpDatagram, opened]
      refine ⟨?_, fun t' done => ?_, fun t' done => ?_⟩
      · simp only [RxState.react, opened, ← rx, Option.map_map]
        refine congrArg (Option.map · _) (funext fun t' => ?_)
        obtain ⟨exit, same⟩ := left t'
        rw [Function.comp_apply, same]
        rfl
      · obtain ⟨mid, handled, rfl⟩ := Option.map_eq_some_iff.mp done
        obtain ⟨exit, same⟩ := left mid
        obtain ⟨packets, emits, control⟩ := (accepted mid handled).signals.emits
        have closed : Emits cfg mid [] { mid with exit := exit } := .of_same rfl rfl rfl rfl
        rw [same]
        exact ⟨packets ++ [], emits.trans closed, .idle (by simpa using control)
          ((accepted mid handled).signals.group.trans ⟨rfl, rfl, rfl⟩)⟩
      · obtain ⟨mid, handled, rfl⟩ := Option.map_eq_some_iff.mp done
        obtain ⟨exit, same⟩ := left mid
        rw [same]
        simp only [followed, opened]
        exact ⟨(accepted mid handled).peer, (accepted mid handled).roamSignals⟩

theorem datagram_stays {bytes payload : Bytes} {source : SocketAddr} {hdr : PacketHeader}
    (opened : cfg.openDatagram t.session.id bytes = .ok (hdr, payload))
    (kind : hdr.packetType ≠ .close) (running : t.exit = none) (open_ : t.closing = false)
    (stepped : t.handleEvent cfg env (.datagram bytes source) = some t') :
    t'.exit = none ∧ t'.closing = false := by
  simp only [handleEvent, handleUdpDatagram, opened] at stepped
  obtain ⟨mid, accepted, rfl⟩ := Option.map_eq_some_iff.mp stepped
  obtain ⟨-, -, -, exit, closing⟩ :=
    (acceptPacket_spec cfg env t source hdr payload).2 mid accepted
  rw [closing kind, open_, if_neg Bool.false_ne_true, exit, running, closing kind]
  exact ⟨rfl, open_⟩

theorem fecTick_spec (cfg : Config σ) (env : Env) (t : Tunnel σ) :
    TurnSpec cfg t env .fecTick (t.handleEvent cfg env .fecTick) := by
  obtain ⟨packets, sends⟩ := flushFecGroupIfStale_transmits cfg env t
  have evicted : Emits cfg (t.flushFecGroupIfStale cfg env) []
      ((t.flushFecGroupIfStale cfg env).evictExpiredRxGroups env) := .of_same rfl rfl rfl rfl
  refine ⟨?_, fun t' done => ?_, fun t' done => ?_⟩
  · exact congrArg (fun r => some (RxState.evict env.now r)) sends.rx.rxState
  · cases done
    have total := sends.emits.trans evicted
    rw [List.append_nil] at total
    exact ⟨packets, total, sends.moves.congr (.refl _) rfl ⟨rfl, rfl, rfl⟩⟩
  · cases done
    exact ⟨sends.rx.peer, sends.rx.roamSignals⟩

/-- Every turn of the loop, seen from its three sides. -/
theorem handleEvent_spec (cfg : Config σ) (env : Env) (t : Tunnel σ) (e : Event) :
    TurnSpec cfg t env e (t.handleEvent cfg env e) := by
  cases e with
  | stop requested =>
      simp only [handleEvent]
      split
      · exact .of_controls (sendControl_controls cfg env t .close (by decide) []) _ rfl rfl
      · exact .of_controls (.refl t) t.exit rfl rfl
  | tun packet =>
      obtain ⟨packets, sends⟩ := onTun_transmits cfg env t packet
      exact .of_transmits sends rfl rfl
  | tunError => exact .of_controls (.refl t) _ rfl rfl
  | pacerRetry =>
      simp only [handleEvent]
      split
      · obtain ⟨packets, sends⟩ := retryPending_transmits cfg env t
        exact .of_transmits sends rfl rfl
      · exact .of_controls (.refl t) t.exit rfl rfl
  | datagram bytes source => exact datagram_spec cfg env t bytes source
  | udpClosed => exact .of_controls (.refl t) _ rfl rfl
  | ping => exact .of_controls (sendPing_controls t) _ rfl rfl
  | fecTick => exact fecTick_spec cfg env t
  | rtoTick => exact .of_controls (checkRetransmits_controls t) _ rfl rfl
  | ackTick => exact .of_controls (flushCoalescedAck_controls t) _ rfl rfl
  | keepalive => exact .of_controls (sendKeepalive_controls t) _ rfl rfl
  | timeoutCheck =>
      simp only [handleEvent]
      split
      · exact .of_controls (sendControl_controls cfg env t .close (by decide) []) _ rfl rfl
      · exact .of_controls (.refl t) t.exit rfl rfl
  | evict => exact .of_controls (sendControl_controls cfg env t .close (by decide) []) _ rfl rfl

/-! ## Runs of the loop -/

theorem step_emits {turn : Env × Event} (stepped : step cfg t turn = some t') :
    ∃ packets, Emits cfg t packets t' ∧ GroupStep cfg t packets t' := by
  cases exited : t.exit with
  | some exit =>
      rw [step_exited turn (by rw [exited]; rfl)] at stepped
      cases stepped
      exact ⟨[], .refl t, .idle (fun _ member => absurd member List.not_mem_nil) (.refl t)⟩
  | none =>
      rw [step_running turn exited] at stepped
      exact (handleEvent_spec cfg turn.1 t turn.2).sends t' stepped

theorem run_emits {turns : List (Env × Event)} (ran : run cfg t turns = some t') :
    ∃ packets, Emits cfg t packets t' := by
  induction turns generalizing t with
  | nil =>
      cases ran
      exact ⟨[], .refl _⟩
  | cons turn turns ih =>
      obtain ⟨mid, stepped, rest⟩ := Runs.run_cons_eq_some.mp ran
      obtain ⟨packets, emits, -⟩ := step_emits stepped
      obtain ⟨packets', emits'⟩ := ih rest
      exact ⟨packets ++ packets', emits.trans emits'⟩

theorem step_id {turn : Env × Event} (stepped : step cfg t turn = some t') :
    t'.session.id = t.session.id := by
  obtain ⟨packets, emits, -⟩ := step_emits stepped
  exact emits.id

theorem step_react {turn : Env × Event} (stepped : step cfg t turn = some t') :
    t'.rxState = t.rxState ∨
      t.rxState.react cfg t.session.id turn.1.now turn.2 = some t'.rxState := by
  cases exited : t.exit with
  | some exit =>
      rw [step_exited turn (by rw [exited]; rfl)] at stepped
      cases stepped
      exact .inl rfl
  | none =>
      rw [step_running turn exited] at stepped
      have rx := (handleEvent_spec cfg turn.1 t turn.2).rx
      rw [stepped, Option.map_some] at rx
      exact .inr rx.symm

/-- One turn of a tunnel whose receive side satisfies an invariant that the machine
    keeps under this event. -/
theorem step_rx {Inv : RxState → Prop} {turn : Env × Event} {sid : SessionId}
    (own : t.session.id = sid) (start : Inv t.rxState)
    (keeps : ∃ r, t.rxState.react cfg sid turn.1.now turn.2 = some r ∧ Inv r) :
    ∃ t', step cfg t turn = some t' ∧ Inv t'.rxState := by
  cases exited : t.exit with
  | some exit => exact ⟨t, step_exited turn (by rw [exited]; rfl), start⟩
  | none =>
      obtain ⟨r, reacts, inv⟩ := keeps
      have rx := (handleEvent_spec cfg turn.1 t turn.2).rx
      rw [own, reacts] at rx
      obtain ⟨t', handled, rfl⟩ := Option.map_eq_some_iff.mp rx
      exact ⟨t', (step_running turn exited).trans handled, inv⟩

/-- A run whose events the machine survives, keeping an invariant, is a run of the
    tunnel that does not panic and keeps it. -/
theorem run_rx_along (Inv : RxState → Prop) {Ok : Tunnel σ → Env × Event → Prop}
    {sid : SessionId} {turns : List (Env × Event)} (own : t.session.id = sid)
    (start : Inv t.rxState) (along : Runs.Along (step cfg) Ok t turns)
    (keeps : ∀ mid turn, mid.session.id = sid → Ok mid turn → Inv mid.rxState →
      ∃ r, mid.rxState.react cfg sid turn.1.now turn.2 = some r ∧ Inv r) :
    ∃ t', run cfg t turns = some t' ∧ Inv t'.rxState := by
  induction turns generalizing t with
  | nil => exact ⟨_, rfl, start⟩
  | cons turn turns ih =>
      obtain ⟨now, later⟩ := Runs.along_cons.mp along
      obtain ⟨mid, stepped, inv⟩ := step_rx own start (keeps _ turn own now start)
      obtain ⟨t', ran, final⟩ := ih ((step_id stepped).trans own) inv (later mid stepped)
      exact ⟨t', Runs.run_cons_eq_some.mpr ⟨mid, stepped, ran⟩, final⟩

theorem run_rx (Inv : RxState → Prop) {sid : SessionId} {turns : List (Env × Event)}
    (own : t.session.id = sid) (start : Inv t.rxState)
    (keeps : ∀ turn ∈ turns, ∀ r, Inv r → ∃ r', r.react cfg sid turn.1.now turn.2 =
      some r' ∧ Inv r') :
    ∃ t', run cfg t turns = some t' ∧ Inv t'.rxState :=
  run_rx_along Inv own start (Runs.along_of_mem keeps) fun mid _ _ keep inv => keep mid.rxState inv

theorem run_exited (exited : t.exit.isSome) (turns : List (Env × Event)) :
    run cfg t turns = some t := by
  induction turns with
  | nil => rfl
  | cons turn turns ih => exact Runs.run_cons_eq_some.mpr ⟨t, step_exited turn exited, ih⟩

end Tunnel

end Rustnies
