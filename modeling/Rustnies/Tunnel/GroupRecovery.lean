import Rustnies.Tunnel.Delivery

/-! # What becomes of one group

`k` packets that fill a group at the sender, and any `k` symbols of the group at the
receiver. The sender encodes the sources padded to one length while the receiver
holds them as they were sent, so the group can be recovered exactly when its packets
have one length; and only a group with parity knows what it has delivered.
-/

namespace Rustnies

variable {σ τ : Type}

/-- What the receiver should hold in a slot of the group. -/
noncomputable def symbolAt (params : FecParams) (packets : List Bytes) (n : Nat) : Bytes :=
  if n < params.k.toNat then packets.getD n []
  else if inside : n - params.k.toNat < params.m.toNat then
    FecScheme.parity params.m.toNat (groupLen packets)
      (padded params.k.toNat packets) ⟨_, inside⟩
  else []

/-- A packet of the group. -/
structure FecPacket.Belongs (params : FecParams) (id : UInt16) (packets : List Bytes)
    (p : FecPacket) :
    Prop where
  group : p.group = id
  m : p.m = params.m
  shaped : p.Shaped params.k
  inside : p.index.toNat < params.k.toNat + params.m.toNat
  payload : p.payload = symbolAt params packets p.index.toNat

namespace RxGroup

variable {scheme : FecScheme} {now : Instant} {params : FecParams} {packets : List Bytes}
  {g g' : RxGroup} {p : FecPacket} {id : UInt16} {lost : List (Nat × Bytes)}

theorem tryRecover_idle {k : Nat} (idle : ¬ (g.decoded = false ∧ k ≤ g.present)) :
    g.tryRecover scheme k = (g, []) := by
  rw [tryRecover, if_neg]
  simpa using idle

theorem tryRecover_ready {k : Nat} {recovered : List Bytes} (fresh : g.decoded = false)
    (enough : k ≤ g.present)
    (decoded : scheme.decode g.k.toNat g.m.toNat g.symbols = .ok recovered) :
    g.tryRecover scheme k = (g.markDecoded, g.lost recovered) := by
  rw [tryRecover, if_pos (by simp [fresh, enough]), decoded]

/-- The group holds symbols of the one group only, and is decoded as soon as it can be. -/
structure Coherent (params : FecParams) (packets : List Bytes) (g : RxGroup) : Prop where
  k : g.k = params.k
  m : g.m = params.m
  tracks : g.Tracks
  symbols : ∀ i, g.symbols.getD i none = none ∨
    g.symbols.getD i none = some (symbolAt params packets i)
  ready : params.k.toNat ≤ g.present → g.decoded
  all : g.decoded → ∀ i < params.k.toNat, g.flag i

theorem coherent_new (positive : 1 ≤ params.k.toNat) (now : Instant) :
    (RxGroup.new params.k params.m now).Coherent params packets := by
  refine ⟨rfl, rfl, tracks_new params.k params.m now, fun i => .inl ?_, fun enough => ?_, nofun⟩
  · simp [new]
  · simp only [present, new, List.countP_replicate] at enough
    exact absurd enough (by simp; omega)

variable (encodable : Encodable scheme params packets)
  (equal : ∀ p ∈ packets, p.length = groupLen packets)

include encodable equal in
theorem Coherent.decode (sizes : g.k = params.k ∧ g.m = params.m)
    (symbols : ∀ i, g.symbols.getD i none = none ∨
      g.symbols.getD i none = some (symbolAt params packets i))
    (enough : params.k.toNat ≤ g.present) :
    scheme.decode g.k.toNat g.m.toNat g.symbols = .ok packets := by
  have unpadded : List.ofFn (padded params.k.toNat packets) = packets := by
    rw [← map_padTo_eq encodable.full]
    exact (List.map_congr_left fun p member => padTo_self (equal p member)).trans (List.map_id _)
  have slots : g.symbols.length = params.k.toNat + params.m.toNat := by
    rw [g.slots, sizes.1, sizes.2]
  have decoded := FecScheme.decode_reedSolomon encodable.positive encodable.small
    (fun j => padded_length (k := params.k.toNat) encodable.full j) slots ?_ ?_ enough
  · rw [encodable.scheme, sizes.1, sizes.2, decoded, unpadded]
  · intro j
    have source : symbolAt params packets j = padded params.k.toNat packets j := by
      rw [symbolAt, if_pos j.isLt, padded, padTo_self (equal _ (mem_of_getD encodable.full j))]
    rw [← source]
    exact symbols j
  · intro i
    have parity : symbolAt params packets (params.k.toNat + i) =
        FecScheme.parity params.m.toNat (groupLen packets) (padded params.k.toNat packets) i := by
      have beyond : ¬ params.k.toNat + i.val < params.k.toNat := by omega
      have inside : params.k.toNat + i.val - params.k.toNat < params.m.toNat := by omega
      rw [symbolAt, if_neg beyond, dif_pos inside]
      congr 1
      exact Fin.ext (Nat.add_sub_cancel_left ..)
    rw [← parity]
    exact symbols _

include encodable equal in
theorem Coherent.arrive (coherent : g.Coherent params packets)
    (belongs : p.Belongs params id packets) (arrived : g.arrive scheme now p = some (g', lost)) :
    g'.Coherent params packets ∧ ∀ e ∈ lost, packets[e.1]? = some e.2 := by
  have own : p.k = params.k := belongs.shaped.size
  have tracks := (arrive_spec coherent.tracks (coherent.k ▸ belongs.shaped) arrived).tracks
  have inside : ¬ p.k.toNat + p.m.toNat ≤ p.index.toNat := by
    rw [own, belongs.m]
    exact Nat.not_le.mpr belongs.inside
  rw [arrive_inside inside] at arrived
  obtain ⟨mid, stored, recovered⟩ := Option.map_eq_some_iff.mp arrived
  obtain ⟨sameK, sameM, slots, sameDecoded, room⟩ := store_keeps stored
  have sizes : mid.k = params.k ∧ mid.m = params.m :=
    ⟨sameK.trans coherent.k, sameM.trans coherent.m⟩
  have symbols : ∀ i, mid.symbols.getD i none = none ∨
      mid.symbols.getD i none = some (symbolAt params packets i) := by
    intro i
    rw [slots, getD_set]
    split
    · rename_i here
      rw [← here.1, belongs.payload]
      exact .inr rfl
    · exact coherent.symbols i
  by_cases ready : mid.decoded = false ∧ p.k.toNat ≤ mid.present
  · have decoded := Coherent.decode encodable equal sizes symbols (own ▸ ready.2)
    rw [tryRecover_ready ready.1 ready.2 decoded] at recovered
    cases recovered
    refine ⟨⟨sizes.1, sizes.2, tracks, symbols, fun _ => rfl, fun _ i source => ?_⟩,
      fun e member => ?_⟩
    · rw [flag_markDecoded, sizes.1]
      exact decide_eq_true source
    · exact (mem_lost.mp member).1
  · rw [tryRecover_idle ready] at recovered
    cases recovered
    refine ⟨⟨sizes.1, sizes.2, tracks, symbols, fun enough => ?_, fun decoded i source => ?_⟩,
      fun e member => absurd member List.not_mem_nil⟩
    · rw [own] at ready
      cases done : g'.decoded with
      | true => rfl
      | false => exact absurd ⟨done, enough⟩ ready
    · have flagged := coherent.all (sameDecoded ▸ decoded) i source
      have kept :=
        store_flag (g := g.refresh now) coherent.tracks (by rw [own, ← coherent.k]; rfl)
        (by simp only [belongs.shaped.sources, own, UInt8.lt_iff_toNat_lt]) stored i
      rw [kept]
      exact Bool.or_eq_true_iff.mpr (.inl flagged)

end RxGroup

/-! ## The receive side -/

namespace RxState

variable {scheme : FecScheme} {now : Instant} {params : FecParams} {packets : List Bytes}
  {id : UInt16} {r r' : RxState}

/-- Everything written is a source of the group, and the group knows each of them. -/
structure Recovering (params : FecParams) (packets : List Bytes) (id : UInt16) (r : RxState) :
    Prop where
  once : r.Once id params.k
  exact_ : ∀ w ∈ r.writes, ∃ i, w.slotIn id = some i ∧ packets[i]? = some w.bytes
  coherent : ∀ g, r.groups.lookup id = some g → g.Coherent params packets
  known : ∀ g i, r.groups.lookup id = some g → g.flag i → i ∈ r.slots id

theorem recovering_empty (vacant : r.groups.lookup id = none) (writes : r.writes = []) :
    r.Recovering params packets id := by
  have absent : ∀ g, r.groups.lookup id ≠ some g := by
    rw [vacant]
    nofun
  have none_ : r.slots id = [] := by
    rw [slots, writes]
    rfl
  refine ⟨⟨?_, fun g held => absurd held (absent g), ?_⟩, ?_, fun g held =>
    absurd held (absent g), fun g i held => absurd held (absent g)⟩
  · rw [none_]
    exact List.nodup_nil
  · rw [none_]
    exact fun i member => absurd member List.not_mem_nil
  · rw [writes]
    exact fun w member => absurd member List.not_mem_nil

section Accept

variable (encodable : Encodable scheme params packets)
  (equal : ∀ p ∈ packets, p.length = groupLen packets)
  {hdr : PacketHeader} {payload : Bytes}
  (belongs : (hdr.fecPacket payload).Belongs params id packets)
  (grouped : (hdr.fecPacket payload).Grouped)

include belongs encodable in
theorem Recovering.target (recovering : r.Recovering params packets id) (now : Instant) :
    (r.target now (hdr.fecPacket payload)).Coherent params packets ∧
    ∀ i, (r.target now (hdr.fecPacket payload)).flag i → i ∈ r.slots id := by
  unfold RxState.target
  rw [belongs.group]
  cases found : r.groups.lookup id with
  | none =>
      refine ⟨?_, fun i flagged => ?_⟩
      · rw [belongs.shaped.size, belongs.m]
        exact RxGroup.coherent_new encodable.positive now
      · rw [Option.getD_none, RxGroup.flag_new] at flagged
        cases flagged
  | some g => exact ⟨recovering.coherent g found, fun i => recovering.known g i found⟩

include belongs in
theorem packet_of_data (full : packets.length = params.k.toNat) (data : hdr.packetType = .data) :
    packets[hdr.fecIndex.toNat]? = some payload := by
  have source : hdr.fecIndex.toNat < params.k.toNat :=
    UInt8.lt_iff_toNat_lt.mp (belongs.shaped.sources.mp data)
  have same : payload = symbolAt params packets hdr.fecIndex.toNat := belongs.payload
  rw [same, symbolAt, if_pos source]
  rw [← full] at source
  rw [List.getD_eq_getElem _ _ source, List.getElem?_eq_getElem source]

include encodable equal belongs grouped in
theorem Recovering.accept (recovering : r.Recovering params packets id) (now : Instant) :
    ∃ r', r.accept scheme now hdr payload = some r' ∧ r'.Recovering params packets id ∧
      ∃ g', r'.groups.lookup id = some g' ∧ g'.filled hdr.fecIndex.toNat ∧
        ∀ g i, r.groups.lookup id = some g → g.filled i → g'.filled i := by
  obtain ⟨coherent, known⟩ := recovering.target encodable belongs now
  obtain ⟨g', lost, arrived⟩ := RxGroup.arrives_of_no_overrun scheme now
    (RxGroup.no_overrun_of_same_size (coherent.k.trans belongs.shaped.size.symm)
      (coherent.m.trans belongs.m.symm))
  obtain ⟨r', accepted⟩ : ∃ r', r.accept scheme now hdr payload = some r' := by
    rw [accept_grouped grouped, record, target_congr (writeOwn_groups r hdr payload), arrived]
    exact ⟨_, rfl⟩
  have shaped : (hdr.fecPacket payload).Shaped (r.target now (hdr.fecPacket payload)).k :=
    coherent.k ▸ belongs.shaped
  obtain ⟨_, _, same, groups, writes, slots⟩ :=
    slots_accept grouped belongs.group shaped accepted
  rw [arrived] at same
  cases same
  have arrives := RxGroup.arrive_spec coherent.tracks shaped arrived
  obtain ⟨coherent', handed⟩ := coherent.arrive encodable equal belongs arrived
  obtain ⟨kept, filled⟩ := RxGroup.arrive_filled arrived
  have lookup : r'.groups.lookup id = some g' := by
    rw [groups, AList.lookup_insert]
  refine ⟨r', accepted,
    ⟨recovering.once.accept_own grouped belongs.group belongs.shaped accepted, ?_, ?_, ?_⟩, g',
    lookup, filled ?_, ?_⟩
  · -- the packet's own write, and those of recovery
    rw [writes]
    intro w member
    rcases List.mem_append.mp member with before | recovered
    · unfold writeOwn at before
      split at before
      · rename_i fresh
        rcases List.mem_append.mp before with old | new
        · exact recovering.exact_ w old
        · obtain rfl := List.mem_singleton.mp new
          exact ⟨_, if_pos ⟨belongs.group, grouped.2⟩,
            packet_of_data belongs encodable.full fresh.1⟩
      · exact recovering.exact_ w before
    · obtain ⟨e, inside, rfl⟩ := List.mem_map.mp recovered
      exact ⟨e.1, if_pos rfl, handed e inside⟩
  · intro g held
    rw [lookup] at held
    cases held
    exact coherent'
  · intro g i held flagged
    rw [lookup] at held
    cases held
    rw [slots, List.mem_append, List.mem_append]
    rcases (arrives.flags i).mp flagged with before | ⟨data, rfl⟩ | recovered
    · exact .inl (.inl (known i before))
    · have data : hdr.packetType = .data := data
      cases up : (r.target now (hdr.fecPacket payload)).flag hdr.fecIndex.toNat with
      | true => exact .inl (.inl (known _ up))
      | false =>
          refine .inl (.inr ?_)
          rw [if_pos ⟨data, rfl⟩]
          exact List.mem_singleton_self _
    · exact .inr recovered
  · rw [belongs.shaped.size, belongs.m]
    exact belongs.inside
  · intro g i held before
    refine kept i ?_
    rw [RxState.target_of_held now (belongs.group ▸ held)]
    exact before

/-- The group is held, with this slot filled. -/
def Holding (id : UInt16) (i : Nat) (r : RxState) : Prop :=
  ∃ g, r.groups.lookup id = some g ∧ g.filled i

end Accept

/-- The packets of groups that open in the event are packets of this group. -/
def Ours (cfg : Config σ) (sid : SessionId) (params : FecParams) (packets : List Bytes)
    (id : UInt16) (e : Event) : Prop :=
  ∀ bytes source hdr payload, e = .datagram bytes source →
    cfg.openDatagram sid bytes = .ok (hdr, payload) →
    hdr.packetType = .data ∨ hdr.packetType = .fec →
    (hdr.fecPacket payload).Grouped ∧ (hdr.fecPacket payload).Belongs params id packets

theorem Recovering.react {cfg : Config σ} {sid : SessionId} {e : Event}
    (recovering : r.Recovering params packets id) (now : Instant)
    (encodable : Encodable cfg.fec params packets)
    (equal : ∀ p ∈ packets, p.length = groupLen packets)
    (ours : Ours cfg sid params packets id e)
    (holds : e = .fecTick → ∀ g, r.groups.lookup id = some g → now < g.deadline) :
    ∃ r', r.react cfg sid now e = some r' ∧ r'.Recovering params packets id ∧
      ∀ i, r.Holding id i → r'.Holding id i := by
  cases e with
  | datagram bytes source =>
      cases opened : cfg.openDatagram sid bytes with
      | error why => exact ⟨r, by rw [RxState.react, opened], recovering, fun i held => held⟩
      | ok packet =>
          obtain ⟨hdr, payload⟩ := packet
          simp only [RxState.react, opened]
          by_cases fec : hdr.packetType = .data ∨ hdr.packetType = .fec
          · obtain ⟨grouped, belongs⟩ := ours bytes source hdr payload rfl opened fec
            obtain ⟨r', accepted, recovering', g', lookup, -, kept⟩ :=
              recovering.accept encodable equal belongs grouped now
            refine ⟨r', accepted, recovering', fun i holding => ?_⟩
            obtain ⟨g, held, filled⟩ := holding
            exact ⟨g', lookup, kept g i held filled⟩
          · refine ⟨r, ?_, recovering, fun i held => held⟩
            rw [accept_ungrouped fun grouped => fec grouped.1, if_neg fun data => fec (.inl data)]
  | fecTick =>
      have kept : (r.evict now).groups.lookup id = r.groups.lookup id := by
        rw [evict, Table.lookup_retain]
        cases found : r.groups.lookup id with
        | none => rfl
        | some g => simp [Option.filter, holds rfl g found]
      refine ⟨r.evict now, rfl,
        ⟨recovering.once.evict (holds rfl), recovering.exact_, ?_, ?_⟩, ?_⟩
      · rw [kept]
        exact recovering.coherent
      · rw [kept]
        exact recovering.known
      · unfold Holding
        rw [kept]
        exact fun i held => held
  | _ => exact ⟨r, rfl, recovering, fun i held => held⟩

/-! ## What was written before -/

/-- The receive side with packets that were written earlier. -/
def after (earlier : List TunWrite) (r : RxState) : RxState :=
  { r with writes := earlier ++ r.writes }

theorem record_after (earlier : List TunWrite) (now : Instant) (p : FecPacket) :
    (r.after earlier).record scheme now p = (r.record scheme now p).map (after earlier) := by
  simp only [record, target, after, Option.map_map, List.append_assoc]
  rfl

theorem write_after (earlier : List TunWrite) (hdr : PacketHeader) (payload : Bytes) :
    (r.after earlier).write hdr payload = (r.write hdr payload).after earlier := by
  rw [write, write, after, after, List.append_assoc]

theorem react_after (cfg : Config σ) (sid : SessionId) (earlier : List TunWrite) (now : Instant)
    (e : Event) :
    (r.after earlier).react cfg sid now e = (r.react cfg sid now e).map (after earlier) := by
  cases e with
  | datagram bytes source =>
      cases opened : cfg.openDatagram sid bytes with
      | error why => simp only [react, opened, Option.map_some]
      | ok packet =>
          simp only [react, opened, accept, acceptData, write_after, record_after]
          change (if _ then if _ then _ else if r.suppresses _ then _ else _ else _) = _
          split_ifs <;> rfl
  | _ => rfl

/-- What was written since is what `Recovering` says. -/
def RecoveringSince (earlier : List TunWrite) (params : FecParams) (packets : List Bytes)
    (id : UInt16) (r : RxState) : Prop :=
  ∃ since : RxState, r = since.after earlier ∧ since.Recovering params packets id

theorem RecoveringSince.react {cfg : Config σ} {sid : SessionId} {e : Event}
    {earlier : List TunWrite} (recovering : r.RecoveringSince earlier params packets id)
    (now : Instant) (encodable : Encodable cfg.fec params packets)
    (equal : ∀ p ∈ packets, p.length = groupLen packets)
    (ours : Ours cfg sid params packets id e)
    (holds : e = .fecTick → ∀ g, r.groups.lookup id = some g → now < g.deadline) :
    ∃ r', r.react cfg sid now e = some r' ∧ r'.RecoveringSince earlier params packets id ∧
      ∀ i, r.Holding id i → r'.Holding id i := by
  obtain ⟨since, rfl, recovering⟩ := recovering
  obtain ⟨since', reacts, recovering', kept⟩ := recovering.react now encodable equal ours holds
  exact ⟨_, by rw [react_after, reacts]; rfl, ⟨since', rfl, recovering'⟩, kept⟩

theorem Recovering.perm {g : RxGroup} (recovering : r.Recovering params packets id)
    (full : packets.length = params.k.toNat) (held : r.groups.lookup id = some g)
    (enough : params.k.toNat ≤ g.present) : (r.writes.map TunWrite.bytes).Perm packets := by
  have coherent := recovering.coherent g held
  have flagged := coherent.all (coherent.ready enough)
  have bytes : r.writes.map TunWrite.bytes = (r.slots id).map fun i => packets.getD i [] := by
    have each := recovering.exact_
    unfold slots
    generalize r.writes = writes at each
    induction writes with
    | nil => rfl
    | cons w writes ih =>
        obtain ⟨i, slot, packet⟩ := each w List.mem_cons_self
        rw [List.map_cons, List.filterMap_cons_some slot, List.map_cons,
          ih fun w member => each w (List.mem_cons_of_mem _ member),
          List.getD_eq_getElem?_getD, packet]
        rfl
  have slots : (r.slots id).Perm (List.range packets.length) := by
    rw [List.perm_ext_iff_of_nodup recovering.once.nodup List.nodup_range]
    intro i
    rw [List.mem_range, full]
    constructor
    · intro written
      obtain ⟨g', held', up⟩ := recovering.once.flagged i written
      rw [held] at held'
      cases held'
      rw [← coherent.k]
      exact RxGroup.flag_lt up
    · exact fun source => recovering.known g i held (flagged i source)
  have whole : (List.range packets.length).map (fun i => packets.getD i []) = packets := by
    apply List.ext_getElem
    · simp
    · intro i inside inside'
      simp [List.getElem?_eq_getElem inside']
  rw [bytes]
  exact (slots.map _).trans (List.Perm.of_eq whole)

end RxState

/-! ## The sender's group -/

section Sender

variable {params : FecParams} {packets : List Bytes} {id : UInt16} {p : FecPacket}

theorem belongs_of_data (full : packets.length = params.k.toNat)
    (member : p ∈ Tunnel.dataPackets params id 0 packets) :
    p.packetType = .data ∧ p.m = params.m ∧ p.Belongs params id packets := by
  obtain ⟨⟨payload, i⟩, inside, rfl⟩ := List.mem_map.mp member
  have found : packets[i]? = some payload := by
    simpa using List.mem_zipIdx_iff_getElem?.mp inside
  obtain ⟨source, same⟩ := List.getElem?_eq_some_iff.mp found
  rw [full] at source
  have index : (UInt8.ofNat i).toNat = i := by
    rw [UInt8.toNat_ofNat', Nat.mod_eq_of_lt]
    exact Nat.lt_trans source params.k.toNat_lt
  refine ⟨rfl, rfl, rfl, rfl, ⟨rfl, ⟨fun _ => ?_, fun _ => rfl⟩⟩, ?_, ?_⟩
  · rw [UInt8.lt_iff_toNat_lt, dataPacket, index]
    exact source
  · rw [dataPacket, index]
    omega
  · rw [dataPacket, index, symbolAt, if_pos source, List.getD_eq_getElem?_getD, found]
    rfl

theorem belongs_of_parity {scheme : FecScheme}
    (member : p ∈ parityPackets scheme params id packets) : p.Belongs params id packets := by
  have encodable := encodable_of_mem member
  obtain ⟨i, rfl⟩ := exists_parityPacket member
  have index : (parityPacket params id packets i).index.toNat = params.k.toNat + i :=
    parityPacket_index encodable i
  have beyond : ¬ (parityPacket params id packets i).index.toNat < params.k.toNat := by omega
  refine ⟨rfl, rfl,
    ⟨rfl, ⟨nofun, fun source => absurd (UInt8.lt_iff_toNat_lt.mp source) beyond⟩⟩, ?_, ?_⟩
  · rw [index]
    omega
  · rw [symbolAt, if_neg beyond, dif_pos (by omega)]
    refine congrArg (FecScheme.parity params.m.toNat (groupLen packets)
      (padded params.k.toNat packets)) (Fin.ext ?_)
    change i.val = (parityPacket params id packets i).index.toNat - params.k.toNat
    omega

end Sender

namespace Tunnel

variable {tx : Config σ} {rx : Config τ} {s s' : Tunnel σ} {t t' : Tunnel τ}

/-- A group that the sender `s` filled with `packets`, of which every data and parity
    packet was sent. -/
structure FillsGroup (tx : Config σ) (s : Tunnel σ) (packets : List Bytes) (sent : List Sent) :
    Prop where
  full : packets.length = s.fecParams.k.toNat
  named : sent.map Sent.fecPacket = dataPackets s.fecParams s.groupId 0 packets ++
    parityPackets tx.fec s.fecParams s.groupId packets
  encodable : 0 < s.fecParams.m.toNat → Encodable tx.fec s.fecParams packets
  sealed : ∀ x ∈ sent, Sealed tx s.session.id x

theorem fillsGroup_of_handOver {items : List (Env × Bytes)} (empty : s.groupBuffer = [])
    (first : s.groupIndex = 0) (positive : 0 < s.fecParams.k.toNat)
    (size : items.length = s.fecParams.k.toNat) (handed : Runs.run (handOver tx) s items = some s')
    (all : s'.sent.length = s.sent.length + s.fecParams.k.toNat + s.fecParams.m.toNat) :
    FillsGroup tx s (items.map Prod.snd) (s'.sent.drop s.sent.length) := by
  have nonempty : items ≠ [] := List.ne_nil_of_length_pos (size ▸ positive)
  obtain ⟨sent, parities, emits, named, sublist⟩ := fills_group nonempty
    (by rw [first, empty]; rfl) (by rw [empty, ← size]; exact Nat.zero_add _) handed
  rw [empty, List.nil_append, List.length_nil] at *
  have new : s'.sent.drop s.sent.length = sent := by
    rw [emits.sent, List.drop_left]
  have full : (items.map Prod.snd).length = s.fecParams.k.toNat := by
    rw [List.length_map, size]
  have count : parities.length = s.fecParams.m.toNat := by
    have total := congrArg List.length named
    rw [emits.sent, List.length_append] at all
    simp only [dataPackets, List.length_map, List.length_append, List.length_zipIdx, size] at total
    omega
  have whole : parities = parityPackets tx.fec s.fecParams s.groupId (items.map Prod.snd) ∧
      (0 < s.fecParams.m.toNat → Encodable tx.fec s.fecParams (items.map Prod.snd)) := by
    cases none_ : parityPackets tx.fec s.fecParams s.groupId (items.map Prod.snd) with
    | nil =>
        rw [none_] at sublist
        obtain rfl := List.sublist_nil.mp sublist
        exact ⟨rfl, fun redundant => by simp only [List.length_nil] at count; omega⟩
    | cons p rest =>
        have encodable := encodable_of_mem (p := p)
          (by rw [none_]; exact List.mem_cons_self)
        refine ⟨?_, fun _ => encodable⟩
        rw [← none_]
        refine sublist.eq_of_length ?_
        rw [parityPackets_eq encodable, List.length_ofFn, count]
  rw [new]
  refine ⟨full, ?_, whole.2, emits.all⟩
  rw [named, whole.1]

variable {packets : List Bytes} {sent : List Sent} {deliveries : List (Env × Event)}

theorem FillsGroup.belongs (fills : FillsGroup tx s packets sent) {x : Sent} (member : x ∈ sent) :
    x.IsFec ∧ x.fecPacket.m = s.fecParams.m ∧
    x.fecPacket.Belongs s.fecParams s.groupId packets := by
  have inside := List.mem_map_of_mem (f := Sent.fecPacket) member
  rw [fills.named] at inside
  rcases List.mem_append.mp inside with data | parity
  · obtain ⟨kind, m, belongs⟩ := belongs_of_data fills.full data
    exact ⟨.inl kind, m, belongs⟩
  · have labels := mem_parityPackets parity
    exact ⟨.inr labels.1, labels.2.2.2, belongs_of_parity parity⟩

/-- Packets with `n` distinct indexes arrive in these turns. -/
def Reaches (n : Nat) (sent : List Sent) (turns : List (Env × Event)) : Prop :=
  ∃ arrived : List Sent, n ≤ arrived.length ∧
    (arrived.map fun x => x.hdr.fecIndex.toNat).Nodup ∧ ∀ x ∈ arrived, x ∈ sent ∧
    ∃ env source, (env, Event.datagram x.wire source) ∈ turns

section Recovers

variable {sid : SessionId} {params : FecParams} {id : UInt16} {earlier : List TunWrite}
  (encodable : Encodable rx.fec params packets)
  (equal : ∀ p ∈ packets, p.length = groupLen packets)

include encodable equal in
/-- A run in which only this group arrives, and is not evicted. -/
theorem run_recovers (held : Nat → Prop) {turns : List (Env × Event)} (own : t.session.id = sid)
    (start : t.rxState.RecoveringSince earlier params packets id)
    (holding : ∀ i, held i → t.rxState.Holding id i)
    (along : Runs.Along (step rx)
      (fun mid turn => Holds id mid turn ∧ RxState.Ours rx sid params packets id turn.2) t
      turns) :
    ∃ t', run rx t turns = some t' ∧ t'.rxState.RecoveringSince earlier params packets id ∧
      ∀ i, held i → t'.rxState.Holding id i := by
  obtain ⟨t', ran, inv⟩ := run_rx_along
    (fun r => r.RecoveringSince earlier params packets id ∧ ∀ i, held i → r.Holding id i)
    own ⟨start, holding⟩ along fun mid turn own ok inv => by
      obtain ⟨r', reacts, recovering, kept⟩ := inv.1.react turn.1.now encodable equal ok.2 ok.1
      exact ⟨r', reacts, recovering, fun i held => kept i (inv.2 i held)⟩
  exact ⟨t', ran, inv⟩

include encodable equal in
theorem holding_of_arrival (own : t.session.id = sid)
    (start : t.rxState.RecoveringSince earlier params packets id)
    (along : Runs.Along (step rx)
      (fun mid turn => Holds id mid turn ∧ RxState.Ours rx sid params packets id turn.2)
      t deliveries)
    (ran : run rx t deliveries = some t') (running : t'.exit = none) {x : Sent}
    (opened : rx.openDatagram sid x.wire = .ok (x.hdr, x.payload)) (fec : x.IsFec) {env : Env}
    {source : SocketAddr} (arrives : (env, Event.datagram x.wire source) ∈ deliveries) :
    t'.rxState.Holding id x.hdr.fecIndex.toNat := by
  obtain ⟨left, right, rfl⟩ := List.append_of_mem arrives
  rw [run, Runs.run_append] at ran
  obtain ⟨before, first, rest⟩ := Option.bind_eq_some_iff.mp ran
  obtain ⟨after, stepped, last⟩ := Runs.run_cons_eq_some.mp rest
  obtain ⟨earlier, later⟩ := Runs.along_append along
  obtain ⟨ok, remaining⟩ := Runs.along_cons.mp (later before first)
  obtain ⟨_, same, state, -⟩ :=
    run_recovers encodable equal (fun _ => False) own start nofun earlier
  obtain rfl := Option.some.inj (first.symm.trans same)
  have sid' : before.session.id = sid := by
    obtain ⟨packets, emits⟩ := run_emits first
    exact emits.id.trans own
  -- a loop that had ended would have ended for good
  have open_ : before.exit = none := by
    by_contra exited
    obtain rfl :=
      Option.some.inj (rest.symm.trans (run_exited (Option.isSome_iff_ne_none.mpr exited) _))
    exact exited running
  have rx' := (handleEvent_spec rx env before (.datagram x.wire source)).rx
  obtain ⟨grouped, belongs⟩ := ok.2 x.wire source x.hdr x.payload rfl opened fec
  obtain ⟨since, earlier_, state⟩ := state
  obtain ⟨r', accepted, state', g', lookup, filled, -⟩ :=
    state.accept encodable equal belongs grouped env.now
  rw [← step_running (env, .datagram x.wire source) open_, stepped, sid', earlier_,
    RxState.react_after] at rx'
  simp only [RxState.react, opened, accepted, Option.map_some, Option.some.injEq] at rx'
  obtain ⟨_, same, -, holding⟩ := run_recovers encodable equal (· = x.hdr.fecIndex.toNat)
    ((step_id stepped).trans sid') ⟨r', rx', state'⟩
      (fun i here => rx' ▸ here ▸ ⟨g', lookup, filled⟩) (remaining after stepped)
  obtain rfl := Option.some.inj (last.symm.trans same)
  exact holding _ rfl

end Recovers

theorem length_le_present {g : RxGroup} {indexes : List Nat} (nodup : indexes.Nodup)
    (filled : ∀ i ∈ indexes, g.filled i) : indexes.length ≤ g.present := by
  have slots : g.symbols = (List.range g.symbols.length).map fun i => g.symbols.getD i none := by
    apply List.ext_getElem
    · simp
    · intro i inside _
      simp [List.getElem?_eq_getElem inside]
  have present : g.present = ((List.range g.symbols.length).filter g.filled).length := by
    rw [RxGroup.present, slots, List.countP_map, List.countP_eq_length_filter, ← slots]
    rfl
  rw [present]
  refine (nodup.subperm fun i member => ?_).length_le
  have up := filled i member
  rw [List.mem_filter, List.mem_range]
  refine ⟨?_, up⟩
  by_contra outside
  rw [RxGroup.filled, List.getD_eq_default _ _ (Nat.le_of_not_lt outside)] at up
  cases up

/-- With parity and packets of one length, any `k` symbols deliver the group to a receiver
    that holds none under its id. -/
theorem FillsGroup.delivered (fills : FillsGroup tx s packets sent) (pair : rx.Receives tx)
    (redundant : 0 < s.fecParams.m.toNat)
    (equal : ∀ p ∈ packets, ∀ q ∈ packets, p.length = q.length)
    (own : t.session.id = s.session.id) (vacant : t.rxGroups.lookup s.groupId = none)
    (delivers : Delivers rx s.session.id sent deliveries)
    (holds : Runs.Along (step rx) (Holds s.groupId) t deliveries)
    (reaches : Reaches s.fecParams.k.toNat sent deliveries) :
    ∃ t', run rx t deliveries = some t' ∧
      (t'.exit = none → ∃ written, t'.tunWrites = t.tunWrites ++ written ∧
        (written.map TunWrite.bytes).Perm packets) := by
  have encodable : Encodable rx.fec s.fecParams packets := pair.fec ▸ fills.encodable redundant
  have parity : s.fecParams.m ≠ 0 := fun none_ => by
    rw [none_] at redundant
    exact absurd redundant (Nat.lt_irrefl 0)
  have long : ∀ p ∈ packets, p.length = groupLen packets := by
    intro p member
    obtain ⟨q, inside, longest⟩ := exists_length_eq_groupLen (List.ne_nil_of_mem member)
    exact (equal p member q inside).trans longest
  have start : t.rxState.RecoveringSince t.tunWrites s.fecParams packets s.groupId := by
    refine ⟨⟨t.rxGroups, []⟩, ?_, RxState.recovering_empty vacant rfl⟩
    rw [RxState.after, List.append_nil]
    rfl
  have along : Runs.Along (step rx) (fun mid turn => Holds s.groupId mid turn ∧
      RxState.Ours rx s.session.id s.fecParams packets s.groupId turn.2) t deliveries := by
    refine holds.and_mem fun turn member bytes source hdr payload event opened fec => ?_
    obtain ⟨x, inside, rfl, rfl⟩ :=
      delivers turn member bytes source hdr payload event opened fec
    obtain ⟨-, m, belongs⟩ := fills.belongs inside
    exact ⟨⟨fec, m ▸ parity⟩, belongs⟩
  obtain ⟨t', ran, state, -⟩ :=
    run_recovers encodable long (fun _ => False) own start nofun along
  refine ⟨t', ran, fun running => ?_⟩
  obtain ⟨arrived, enough, nodup, each⟩ := reaches
  have holding : ∀ x ∈ arrived, t'.rxState.Holding s.groupId x.hdr.fecIndex.toNat := by
    intro x member
    obtain ⟨inside, env, source, arrives⟩ := each x member
    have fec := (fills.belongs inside).1
    exact holding_of_arrival encodable long own start along ran running
      (Config.openDatagram_sent pair (fills.sealed x inside) fec) fec arrives
  obtain ⟨first, member⟩ :=
    List.exists_mem_of_length_pos (Nat.lt_of_lt_of_le encodable.positive enough)
  obtain ⟨g, held, -⟩ := holding first member
  obtain ⟨since, earlier_, state⟩ := state
  rw [earlier_] at held
  refine ⟨since.writes, congrArg RxState.writes earlier_,
    state.perm fills.full held (Nat.le_trans enough ?_)⟩
  rw [← List.length_map (f := fun x : Sent => x.hdr.fecIndex.toNat)]
  refine length_le_present nodup fun i inside => ?_
  obtain ⟨x, member, rfl⟩ := List.mem_map.mp inside
  obtain ⟨g', held', filled⟩ := holding x member
  rw [earlier_, held] at held'
  cases held'
  exact filled

end Tunnel

end Rustnies
