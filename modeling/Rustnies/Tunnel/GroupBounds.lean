import Rustnies.Tunnel.Pairing

/-! # Indexes into a group

A group's vectors are sized by the packet that opened it, while the index of every
later packet is checked against that packet's own sizes. `FecPacket.Fits` is what
makes the two agree: it says when a packet's indexes lie inside the vectors that
another packet allocated. The receive path of a session never panics exactly when
every packet the sender emitted fits every other packet of its group.
-/

namespace Rustnies

variable {σ τ : Type}

namespace FecPacket

/-- The indexes that `p` uses lie inside the group that `opener` allocates. The flag
    of a source is set only when its slot was empty, so the slot of the opener itself
    needs no flag. -/
def Fits (opener p : FecPacket) : Prop :=
  p.index.toNat < p.k.toNat + p.m.toNat →
    p.index.toNat < opener.k.toNat + opener.m.toNat ∧
    (p.packetType = .data → p.index < p.k → p.index < opener.k ∨ p.index = opener.index)

instance (opener p : FecPacket) : Decidable (opener.Fits p) := inferInstanceAs (Decidable (_ → _))

theorem Fits.of_same_size {opener p : FecPacket} (k : opener.k = p.k) (m : opener.m = p.m) :
    opener.Fits p := by
  intro inside
  rw [k, m]
  exact ⟨inside, fun _ source => .inl source⟩

end FecPacket

/-! ## When an arrival panics -/

namespace RxGroup

variable {scheme : FecScheme} {now : Instant} {g g' : RxGroup} {p : FecPacket}
  {lost : List (Nat × Bytes)}

/-- An index of the packet lies outside the group's vectors. -/
def Overrun (g : RxGroup) (p : FecPacket) : Prop :=
  p.index.toNat < p.k.toNat + p.m.toNat ∧
  (g.k.toNat + g.m.toNat ≤ p.index.toNat ∨
    (p.packetType = .data ∧ p.index < p.k ∧ g.k ≤ p.index ∧
      g.symbols[p.index.toNat]? = some none))

theorem store_eq_none_iff {index k : Nat} {payload : Bytes} {isData : Bool} :
    g.store index k payload isData = none ↔
      g.k.toNat + g.m.toNat ≤ index ∨
        (isData ∧ index < k ∧ g.k.toNat ≤ index ∧ g.symbols[index]? = some none) := by
  rw [← g.slots, ← g.flags]
  unfold store
  split
  · rename_i absent
    simp [List.getElem?_eq_none_iff.mp absent]
  · rename_i slot found
    have inside := (List.getElem?_eq_some_iff.mp found).1
    have notOutside : ¬ g.symbols.length ≤ index := Nat.not_le.mpr inside
    simp only [found, notOutside, false_or, Bool.and_eq_true, decide_eq_true_eq, Option.some.injEq,
      Option.isNone_iff_eq_none]
    split
    · rename_i flagged
      obtain ⟨⟨data, empty⟩, source⟩ := flagged
      split
      · rename_i room
        simp [Nat.not_le.mpr room]
      · rename_i overrun
        simp [data, empty, source, Nat.le_of_not_lt overrun]
    · rename_i unflagged
      simp only [reduceCtorEq, false_iff]
      exact fun ⟨data, source, _, empty⟩ => unflagged ⟨⟨data, empty⟩, source⟩

theorem arrive_eq_none_iff (scheme : FecScheme) (now : Instant) (g : RxGroup) (p : FecPacket) :
    g.arrive scheme now p = none ↔ g.Overrun p := by
  by_cases outside : p.k.toNat + p.m.toNat ≤ p.index.toNat
  · rw [arrive_outside outside]
    simp [Overrun, Nat.not_lt.mpr outside]
  · rw [arrive_inside outside, Option.map_eq_none_iff, store_eq_none_iff, Overrun]
    simp only [Nat.lt_of_not_le outside, true_and, decide_eq_true_eq, UInt8.lt_iff_toNat_lt,
      UInt8.le_iff_toNat_le]
    rfl

theorem tryRecover_keeps (scheme : FecScheme) (g : RxGroup) (k : Nat) :
    (g.tryRecover scheme k).1.k = g.k ∧ (g.tryRecover scheme k).1.m = g.m ∧
    (g.tryRecover scheme k).1.symbols = g.symbols := by
  unfold tryRecover
  split
  · split <;> exact ⟨rfl, rfl, rfl⟩
  · exact ⟨rfl, rfl, rfl⟩

theorem store_keeps {index k : Nat} {payload : Bytes} {isData : Bool}
    (stored : g.store index k payload isData = some g') :
    g'.k = g.k ∧ g'.m = g.m ∧ g'.symbols = g.symbols.set index (some payload) ∧
    g'.decoded = g.decoded ∧ index < g.symbols.length := by
  unfold store at stored
  split at stored
  · cases stored
  · rename_i slot found
    have inside := (List.getElem?_eq_some_iff.mp found).1
    simp only at stored
    split at stored
    · split at stored
      · cases stored
        exact ⟨rfl, rfl, rfl, rfl, inside⟩
      · cases stored
    · cases stored
      exact ⟨rfl, rfl, rfl, rfl, inside⟩

/-- An arrival keeps the sizes, and writes the packet's slot if its index is inside
    its own sizes. -/
theorem arrive_keeps (arrived : g.arrive scheme now p = some (g', lost)) :
    g'.k = g.k ∧ g'.m = g.m ∧
    g'.symbols = if p.k.toNat + p.m.toNat ≤ p.index.toNat then g.symbols
      else g.symbols.set p.index.toNat (some p.payload) := by
  by_cases outside : p.k.toNat + p.m.toNat ≤ p.index.toNat
  · rw [arrive_outside outside] at arrived
    cases arrived
    exact ⟨rfl, rfl, (if_pos outside).symm⟩
  · rw [arrive_inside outside] at arrived
    obtain ⟨mid, stored, recovered⟩ := Option.map_eq_some_iff.mp arrived
    obtain ⟨k, m, symbols, -⟩ := store_keeps stored
    obtain ⟨k', m', symbols'⟩ := tryRecover_keeps scheme mid p.k.toNat
    rw [recovered] at k' m' symbols'
    exact ⟨k'.trans k, m'.trans m, (symbols'.trans symbols).trans (if_neg outside).symm⟩

end RxGroup

/-! ## Runs that do not panic -/

/-- Every packet fits the groups that the other packets open. -/
def PacketsFit (packets : List FecPacket) : Prop :=
  ∀ p ∈ packets, ∀ q ∈ packets, p.Grouped → q.Grouped → p.group = q.group → p.Fits q

instance (packets : List FecPacket) : Decidable (PacketsFit packets) :=
  inferInstanceAs (Decidable (∀ p ∈ packets, _))

theorem PacketsFit.subset {packets fewer : List FecPacket} (fit : PacketsFit packets)
    (subset : fewer ⊆ packets) : PacketsFit fewer :=
  fun p first q second => fit p (subset first) q (subset second)

/-- The group was opened by the packet, whose slot is no longer empty. -/
structure RxGroup.OpenedBy (g : RxGroup) (p : FecPacket) : Prop where
  k : g.k = p.k
  m : g.m = p.m
  slot : p.index.toNat < p.k.toNat + p.m.toNat → g.symbols[p.index.toNat]? ≠ some none

namespace RxGroup

variable {scheme : FecScheme} {now : Instant} {g g' : RxGroup} {p q : FecPacket}
  {lost : List (Nat × Bytes)}

theorem OpenedBy.no_overrun (opened : g.OpenedBy p) (fits : p.Fits q) : ¬ g.Overrun q := by
  rintro ⟨inside, overrun⟩
  obtain ⟨small, source⟩ := fits inside
  rw [opened.k, opened.m] at overrun
  rcases overrun with outside | ⟨data, own, beyond, empty⟩
  · exact absurd outside (Nat.not_le.mpr small)
  · rcases source data own with before | same
    · exact absurd before (UInt8.not_lt.mpr beyond)
    · rw [same] at empty small
      exact opened.slot small empty

theorem OpenedBy.arrive (opened : g.OpenedBy p)
    (arrived : g.arrive scheme now q = some (g', lost)) :
    g'.OpenedBy p := by
  obtain ⟨k, m, symbols⟩ := arrive_keeps arrived
  refine ⟨k.trans opened.k, m.trans opened.m, fun inside => ?_⟩
  rw [symbols]
  split
  · exact opened.slot inside
  · rw [List.getElem?_set]
    split
    · split <;> nofun
    · exact opened.slot inside

/-- A packet of the group's own size never panics. -/
theorem no_overrun_of_same_size (k : g.k = p.k) (m : g.m = p.m) : ¬ g.Overrun p := by
  rintro ⟨inside, overrun⟩
  rw [k, m] at overrun
  rcases overrun with outside | ⟨-, source, beyond, -⟩
  · exact absurd outside (Nat.not_le.mpr inside)
  · exact absurd source (UInt8.not_lt.mpr beyond)

theorem arrives_of_no_overrun (scheme : FecScheme) (now : Instant) (inside : ¬ g.Overrun p) :
    ∃ g' lost, g.arrive scheme now p = some (g', lost) := by
  rw [← arrive_eq_none_iff scheme now, ← ne_eq, Option.ne_none_iff_exists'] at inside
  obtain ⟨⟨g', lost⟩, arrived⟩ := inside
  exact ⟨g', lost, arrived⟩

theorem overrun_of_unfit (arrived : (RxGroup.new p.k p.m now).arrive scheme now p = some (g', lost))
    (unfit : ¬ p.Fits q) : g'.Overrun q := by
  obtain ⟨k, m, symbols⟩ := arrive_keeps arrived
  simp only [FecPacket.Fits, not_forall] at unfit
  obtain ⟨inside, unfit⟩ := unfit
  refine ⟨inside, ?_⟩
  rw [k, m]
  by_cases small : q.index.toNat < p.k.toNat + p.m.toNat
  · simp only [small, true_and, not_forall, not_or] at unfit
    obtain ⟨data, source, beyond, other⟩ := unfit
    refine .inr ⟨data, source, UInt8.not_lt.mp beyond, ?_⟩
    have empty : (RxGroup.new p.k p.m now).symbols[q.index.toNat]? = some none := by
      rw [RxGroup.new, List.getElem?_replicate, if_pos small]
    have apart : p.index.toNat ≠ q.index.toNat := fun same => other (UInt8.toNat_inj.mp same.symm)
    rw [symbols]
    split
    · exact empty
    · rw [List.getElem?_set_ne apart, empty]
  · exact .inl (Nat.le_of_not_lt small)

theorem openedBy_new (arrived : (RxGroup.new p.k p.m now).arrive scheme now p = some (g', lost)) :
    g'.OpenedBy p := by
  obtain ⟨k, m, symbols⟩ := arrive_keeps arrived
  refine ⟨k, m, fun inside => ?_⟩
  rw [symbols, if_neg (Nat.not_le.mpr inside), List.getElem?_set_self']
  cases (RxGroup.new p.k p.m now).symbols[p.index.toNat]? <;> nofun

end RxGroup

namespace RxState

variable {scheme : FecScheme} {now : Instant} {r : RxState} {packets : List FecPacket}

/-- Every open group was opened by one of the packets. -/
def GroupsOf (packets : List FecPacket) (r : RxState) : Prop :=
  ∀ id g, r.groups.lookup id = some g → ∃ p ∈ packets, p.Grouped ∧ p.group = id ∧
    g.OpenedBy p

theorem record_eq_none_iff {p : FecPacket} :
    r.record scheme now p = none ↔ (r.target now p).Overrun p := by
  rw [record, Option.map_eq_none_iff, RxGroup.arrive_eq_none_iff]

theorem target_congr {r' : RxState} (same : r'.groups = r.groups) (now : Instant) (p : FecPacket) :
    r'.target now p = r.target now p := by
  rw [target, same]
  rfl

theorem record_unfit {r' : RxState} (now' : Instant) {p q : FecPacket}
    (empty : r.groups.lookup p.group = none) (recorded : r.record scheme now p = some r')
    (same : p.group = q.group) (unfit : ¬ p.Fits q) : r'.record scheme now' q = none := by
  obtain ⟨⟨g', lost⟩, arrived, rfl⟩ := Option.map_eq_some_iff.mp recorded
  rw [target, empty, Option.getD_none] at arrived
  rw [record_eq_none_iff, target, ← same, AList.lookup_insert, Option.getD_some]
  exact RxGroup.overrun_of_unfit arrived unfit

theorem arrive_target (scheme : FecScheme) (now : Instant) (fit : PacketsFit packets)
    (opened : GroupsOf packets r) {q : FecPacket}
    (member : q ∈ packets) (grouped : q.Grouped) :
    ∃ g' lost, (r.target now q).arrive scheme now q = some (g', lost) ∧
      ∃ p ∈ packets, p.Grouped ∧ p.group = q.group ∧ g'.OpenedBy p := by
  unfold target
  cases found : r.groups.lookup q.group with
  | none =>
      obtain ⟨g', lost, arrived⟩ := RxGroup.arrives_of_no_overrun scheme now
        (RxGroup.no_overrun_of_same_size (g := .new q.k q.m now) (p := q) rfl rfl)
      exact ⟨g', lost, arrived, q, member, grouped, rfl, RxGroup.openedBy_new arrived⟩
  | some g =>
      obtain ⟨p, sent, opener, same, by_⟩ := opened q.group g found
      obtain ⟨g', lost, arrived⟩ := RxGroup.arrives_of_no_overrun scheme now
        (by_.no_overrun (fit p sent q member opener grouped same))
      exact ⟨g', lost, arrived, p, sent, opener, same, by_.arrive arrived⟩

theorem record_groupsOf (fit : PacketsFit packets) (opened : GroupsOf packets r) {q : FecPacket}
    (member : q ∈ packets) (grouped : q.Grouped) :
    ∃ r', r.record scheme now q = some r' ∧ GroupsOf packets r' := by
  obtain ⟨g', lost, arrived, opener⟩ := arrive_target scheme now fit opened member grouped
  refine ⟨_, by rw [record, arrived, Option.map_some], fun id g found => ?_⟩
  by_cases same : id = q.group
  · subst same
    rw [AList.lookup_insert] at found
    cases found
    exact opener
  · rw [AList.lookup_insert_ne same] at found
    exact opened id g found

theorem react_groupsOf (cfg : Config σ) (sid : SessionId) (e : Event) (fit : PacketsFit packets)
    (honest : ∀ bytes source hdr payload, e = .datagram bytes source →
      cfg.openDatagram sid bytes = .ok (hdr, payload) → (hdr.fecPacket payload).Grouped →
      hdr.fecPacket payload ∈ packets)
    (opened : GroupsOf packets r) :
    ∃ r', r.react cfg sid now e = some r' ∧ GroupsOf packets r' := by
  cases e with
  | datagram bytes source =>
      cases accepted : cfg.openDatagram sid bytes with
      | error why => exact ⟨r, by rw [react, accepted], opened⟩
      | ok packet =>
          obtain ⟨hdr, payload⟩ := packet
          simp only [react, accepted]
          by_cases grouped : (hdr.fecPacket payload).Grouped
          · rw [accept_grouped grouped]
            refine record_groupsOf fit ?_ (honest bytes source hdr payload rfl accepted grouped)
              grouped
            intro id g found
            exact opened id g (writeOwn_groups r hdr payload ▸ found)
          · refine ⟨_, accept_ungrouped grouped, ?_⟩
            split <;> exact opened
  | fecTick =>
      refine ⟨_, rfl, fun id g found => ?_⟩
      exact opened id g (Table.lookup_retain_eq_some.mp found).1
  | _ => exact ⟨r, rfl, opened⟩

end RxState

namespace Tunnel

variable {tx : Config σ} {rx : Config τ} {s s' : Tunnel σ} {t : Tunnel τ}
  {turns : List (Env × Event)}

/-- Two packets of a group, of which the second does not fit the first: the receiver
    panics on the second. -/
theorem panics_of_unfit (pair : rx.Receives tx) {sid : SessionId} (own : t.session.id = sid)
    (fresh : Fresh t) {p q : Sent} (first : Sealed tx sid p) (second : Sealed tx sid q)
    (opener : p.fecPacket.Grouped) (grouped : q.fecPacket.Grouped)
    (same : p.fecPacket.group = q.fecPacket.group) (unfit : ¬ p.fecPacket.Fits q.fecPacket)
    (env : Env) (source : SocketAddr) :
    run rx t ([p, q].map fun s => (env, .datagram s.wire source)) = none := by
  obtain ⟨rx₁, running⟩ := step_sent pair (fresh.running own) first opener.1 env source
  simp only [List.map_cons, List.map_nil, Runs.run_cons, Runs.run_nil]
  cases stepped : step rx t (env, .datagram p.wire source) with
  | none => rfl
  | some mid =>
      have open_ := running mid stepped
      obtain ⟨rx₂, -⟩ := step_sent pair open_ second grouped.1 env source
      rw [stepped, Option.map_some, RxState.accept_grouped opener] at rx₁
      have empty : (t.rxState.writeOwn p.hdr p.payload).groups.lookup p.fecPacket.group = none := by
        rw [RxState.writeOwn_groups, rxState, fresh.rxGroups, AList.lookup_empty]
      have stuck := RxState.record_unfit env.now empty rx₁.symm same unfit
      rw [RxState.record_eq_none_iff, ← RxState.target_congr
        (RxState.writeOwn_groups _ q.hdr q.payload), ← RxState.record_eq_none_iff
        (r := mid.rxState.writeOwn q.hdr q.payload)] at stuck
      rw [RxState.accept_grouped grouped] at rx₂
      rw [Option.bind_some, Option.map_eq_none_iff.mp (rx₂.trans stuck)]
      rfl

theorem exists_panic_of_unfit (pair : rx.Receives tx) (silent : s.sent = [])
    (ran : run tx s turns = some s') (own : t.session.id = s.session.id) (fresh : Fresh t)
    (unfit : ¬ PacketsFit (s'.sent.map Sent.fecPacket)) :
    ∃ deliveries, Delivers rx s.session.id s'.sent deliveries ∧ run rx t deliveries = none := by
  simp only [PacketsFit, not_forall] at unfit
  obtain ⟨_, first, _, second, opener, grouped, same, unfit⟩ := unfit
  obtain ⟨p, sent, rfl⟩ := List.mem_map.mp first
  obtain ⟨q, sent', rfl⟩ := List.mem_map.mp second
  refine ⟨[p, q].map fun s => (sampleEnv 0 0, .datagram s.wire (sampleAddr 1)), ?_, ?_⟩
  · refine delivers_of_wires pair (fun _ => sealed_of_run silent ran)
      fun turn member bytes source event => ?_
    simp only [List.map_cons, List.map_nil, List.mem_cons, List.not_mem_nil, or_false] at member
    rcases member with rfl | rfl
    · cases event
      exact ⟨p, sent, opener.1, rfl⟩
    · cases event
      exact ⟨q, sent', grouped.1, rfl⟩
  · exact panics_of_unfit pair own fresh (sealed_of_run silent ran sent)
      (sealed_of_run silent ran sent') opener grouped same unfit _ _

/-- The receive path never panics, whatever the order, loss and repetition of the
    sender's packets, exactly when its packets fit each other. -/
theorem never_panics_iff_fit (pair : rx.Receives tx) (silent : s.sent = [])
    (ran : run tx s turns = some s') (own : t.session.id = s.session.id) (fresh : Fresh t) :
    (∀ deliveries, Delivers rx s.session.id s'.sent deliveries → run rx t deliveries ≠
      none) ↔ PacketsFit (s'.sent.map Sent.fecPacket) := by
  constructor
  · intro safe
    by_contra unfit
    obtain ⟨deliveries, delivers, panics⟩ :=
      exists_panic_of_unfit pair silent ran own fresh unfit
    exact safe deliveries delivers panics
  · intro fit deliveries delivers
    have start : t.rxState.GroupsOf (s'.sent.map Sent.fecPacket) := by
      intro id g found
      simp [rxState, fresh.rxGroups] at found
    obtain ⟨t', safe, -⟩ := run_rx (RxState.GroupsOf _) own start fun turn member r opened =>
      RxState.react_groupsOf rx _ turn.2 fit
        (fun bytes source hdr payload event accepted grouped => by
        obtain ⟨p, sent, rfl, rfl⟩ :=
          delivers turn member bytes source hdr payload event accepted grouped.1
        exact List.mem_map_of_mem sent) opened
    rw [safe]
    exact Option.some_ne_none t'

/-! ## The sender's parameters -/

theorem sizes_of_steady_run {params : FecParams}
    (steady : Runs.Along (step tx) (fun mid _ => mid.fecParams = params) s turns)
    (ran : run tx s turns = some s')
    (start : ∀ p ∈ s.sent, p.IsFec → p.fecPacket.k = params.k ∧ p.fecPacket.m = params.m) :
    ∀ p ∈ s'.sent, p.IsFec → p.fecPacket.k = params.k ∧ p.fecPacket.m = params.m := by
  refine Runs.invariant_along
    (fun s => ∀ p ∈ s.sent, p.IsFec → p.fecPacket.k = params.k ∧ p.fecPacket.m = params.m)
    (fun s turn s' same stepped sizes p member fec => ?_) steady ran start
  obtain ⟨packets, emits, moves⟩ := step_emits stepped
  rw [emits.sent] at member
  rcases List.mem_append.mp member with old | new
  · exact sizes p old fec
  · rw [← same]
    exact (moves.labels new fec).2

theorem packetsFit_of_steady_run {params : FecParams} (silent : s.sent = [])
    (steady : Runs.Along (step tx) (fun mid _ => mid.fecParams = params) s turns)
    (ran : run tx s turns = some s') : PacketsFit (s'.sent.map Sent.fecPacket) := by
  have sizes := sizes_of_steady_run steady ran (by simp [silent])
  intro _ first _ second opener grouped _
  obtain ⟨p, sent, rfl⟩ := List.mem_map.mp first
  obtain ⟨q, sent', rfl⟩ := List.mem_map.mp second
  obtain ⟨k, m⟩ := sizes p sent opener.1
  obtain ⟨k', m'⟩ := sizes q sent' grouped.1
  exact .of_same_size (k.trans k'.symm) (m.trans m'.symm)

/-! ## Redundancy raised inside a group -/

/-- Two sources and one parity symbol to a group, and up to ten after losses. -/
def adaptiveTunnel : Tunnel Unit :=
  (Tunnel.fromHandshake (sampleAddr 1) (.new 7 .initiator) () 0).configureFec
    (sampleConfig .initiatorToResponder .responderToInitiator) ⟨2, 1, 10, 1⟩

/-- Sixty-five packets, of which the last opens a group; then the first sixty-four
    count as lost, and the next packet fills the group under the raised parameters. -/
def raisingTurns : List (Env × Event) :=
  List.replicate 65 (sampleEnv 0 0, .tun [1]) ++
    [(sampleEnv 2000000000 0, .rtoTick), (sampleEnv 2000000000 0, .tun [2])]

/-- The parity packets of that group panic a receiver that saw its first packet. -/
theorem raised_parity_panics : ¬ ∀ (turns : List (Env × Event)) (s' : Tunnel Unit),
    run (sampleConfig .initiatorToResponder .responderToInitiator) adaptiveTunnel turns =
    some s' → ∀ deliveries, Delivers
    (sampleConfig .responderToInitiator .initiatorToResponder) 7 s'.sent deliveries → run
    (sampleConfig .responderToInitiator .initiatorToResponder)
    (sampleTunnel ⟨1, 2⟩) deliveries ≠
        none := by
  intro safe
  have unfit : ((run (sampleConfig .initiatorToResponder .responderToInitiator) adaptiveTunnel
      raisingTurns).map fun s' => decide (PacketsFit ((s'.sent.drop 96).map Sent.fecPacket))) =
        some false := by
    decide +kernel
  obtain ⟨s', ran, unfit⟩ := Option.map_eq_some_iff.mp unfit
  obtain ⟨deliveries, delivers, panics⟩ :=
    exists_panic_of_unfit (sampleConfig_receives _ _) rfl ran (t := sampleTunnel ⟨1, 2⟩) rfl
    ⟨rfl, rfl, rfl, rfl⟩ fun fit =>
      of_decide_eq_false unfit (fit.subset (List.map_subset _ (List.drop_subset _ _)))
  exact safe raisingTurns s' ran deliveries delivers panics

/-- The same session before the losses are noticed. -/
theorem unraised_never_panics : ∃ s',
    run (sampleConfig .initiatorToResponder .responderToInitiator) adaptiveTunnel
      [(sampleEnv 0 0, .tun [1]), (sampleEnv 0 0, .tun [2])] = some s' ∧
    ∀ deliveries, Delivers (sampleConfig .responderToInitiator .initiatorToResponder) 7 s'.sent
    deliveries → run (sampleConfig .responderToInitiator .initiatorToResponder)
    (sampleTunnel ⟨1, 2⟩) deliveries ≠
        none := by
  have fit : ((run (sampleConfig .initiatorToResponder .responderToInitiator) adaptiveTunnel
      [(sampleEnv 0 0, .tun [1]), (sampleEnv 0 0, .tun [2])]).map fun s' =>
        decide (PacketsFit (s'.sent.map Sent.fecPacket))) = some true := by
    decide +kernel
  obtain ⟨s', ran, fit⟩ := Option.map_eq_some_iff.mp fit
  exact ⟨s', ran, (never_panics_iff_fit (sampleConfig_receives _ _) rfl ran
    (t := sampleTunnel ⟨1, 2⟩) rfl ⟨rfl, rfl, rfl, rfl⟩).mpr (of_decide_eq_true fit)⟩

end Tunnel

end Rustnies
