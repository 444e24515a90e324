import Rustnies.Tunnel.GroupRecovery

/-! # When a group is delivered

The converse of the recovery result. Without parity a repeated packet is written
again. With parity, a short data packet and a parity packet have different lengths,
and a group that holds both is never decoded. So a group is delivered whatever `k` of
its symbols arrive exactly when it has parity and its packets have one length.
-/

namespace Rustnies

variable {σ τ : Type}

/-! ## Groups that cannot be decoded -/

namespace RxGroup

variable {scheme : FecScheme} {now : Instant} {g g' : RxGroup} {p : FecPacket}
  {lost : List (Nat × Bytes)} {a b : Nat}

theorem lost_eq_nil (arrived : g.arrive scheme now p = some (g', lost))
    (hopeless : g'.present < p.k.toNat ∨
      ∀ recovered, scheme.decode g'.k.toNat g'.m.toNat g'.symbols ≠ .ok recovered) :
      lost = [] := by
  by_cases outside : p.k.toNat + p.m.toNat ≤ p.index.toNat
  · rw [arrive_outside outside] at arrived
    cases arrived
    rfl
  · rw [arrive_inside outside] at arrived
    obtain ⟨mid, -, made⟩ := Option.map_eq_some_iff.mp arrived
    obtain ⟨k, m, symbols⟩ := tryRecover_keeps scheme mid p.k.toNat
    rcases tryRecover_cases scheme mid p.k.toNat with idle | ⟨recovered, -, enough, decoded, -⟩
    · rw [idle] at made
      cases made
      rfl
    · rw [made] at k m symbols
      rw [present, symbols, k, m] at hopeless
      rcases hopeless with few | stuck
      · exact absurd enough (Nat.not_le.mpr few)
      · exact absurd decoded (stuck recovered)

/-- The group holds two symbols of different lengths. -/
def Stuck (a b : Nat) (g : RxGroup) : Prop :=
  ∃ x y, g.symbols.getD a none = some x ∧ g.symbols.getD b none = some y ∧
    x.length ≠ y.length

theorem Stuck.undecodable (stuck : g.Stuck a b) (scheme : FecScheme) (recovered : List Bytes) :
    scheme.decode g.k.toNat g.m.toNat g.symbols ≠ .ok recovered := by
  intro decoded
  obtain ⟨x, y, first, second, differ⟩ := stuck
  obtain ⟨len, equal⟩ := FecScheme.decode_equal_lengths decoded
  exact differ
    ((equal x (mem_of_getD_eq_some first)).trans (equal y (mem_of_getD_eq_some second)).symm)

theorem arrive_getD (arrived : g.arrive scheme now p = some (g', lost))
    (inside : p.index.toNat < p.k.toNat + p.m.toNat) (i : Nat) :
    g'.symbols.getD i none = if p.index.toNat = i then some p.payload
    else g.symbols.getD i none := by
  obtain ⟨-, -, symbols⟩ := arrive_keeps arrived
  rw [if_neg (Nat.not_le.mpr inside)] at symbols
  rw [symbols, getD_set]
  have room : p.index.toNat < g.symbols.length := by
    by_contra beyond
    have overrun : g.Overrun p :=
      ⟨inside, .inl (by rw [← g.slots]; exact Nat.le_of_not_lt beyond)⟩
    rw [← arrive_eq_none_iff scheme now, arrived] at overrun
    cases overrun
  by_cases same : p.index.toNat = i
  · subst same
    simp [room]
  · simp [same]

theorem Stuck.arrive (stuck : g.Stuck a b) (arrived : g.arrive scheme now p = some (g', lost))
    (inside : p.index.toNat < p.k.toNat + p.m.toNat) (notA : p.index.toNat ≠ a)
    (notB : p.index.toNat ≠ b) : g'.Stuck a b := by
  obtain ⟨x, y, first, second, differ⟩ := stuck
  refine ⟨x, y, ?_, ?_, differ⟩
  · rw [arrive_getD arrived inside, if_neg notA, first]
  · rw [arrive_getD arrived inside, if_neg notB, second]

theorem present_of_first (arrived : (RxGroup.new p.k p.m now).arrive scheme now p = some (g', lost))
    (inside : p.index.toNat < p.k.toNat + p.m.toNat) : g'.present = 1 := by
  obtain ⟨-, -, symbols⟩ := arrive_keeps arrived
  rw [if_neg (Nat.not_le.mpr inside)] at symbols
  have room : p.index.toNat < (RxGroup.new p.k p.m now).symbols.length := by
    rw [RxGroup.slots]
    exact inside
  rw [present, symbols, List.countP_set room]
  simp [new]

end RxGroup

namespace RxState

variable {scheme : FecScheme} {now : Instant} {r r' : RxState} {hdr : PacketHeader}
  {payload : Bytes}

theorem writeOwn_length (r : RxState) (hdr : PacketHeader) (payload : Bytes) :
    (r.writeOwn hdr payload).writes.length ≤
      r.writes.length + if hdr.packetType = .data then 1 else 0 := by
  unfold writeOwn
  split
  · rename_i fresh
    rw [if_pos fresh.1]
    simp [write]
  · exact Nat.le_add_right ..

/-- The group cannot be decoded. -/
def Stuck (id : UInt16) (a b : Nat) (r : RxState) : Prop :=
  ∃ g, r.groups.lookup id = some g ∧ g.Stuck a b

theorem writes_of_hopeless (grouped : (hdr.fecPacket payload).Grouped)
    (accepted : r.accept scheme now hdr payload = some r')
    (hopeless : ∀ g' lost,
      (r.target now (hdr.fecPacket payload)).arrive scheme now (hdr.fecPacket payload) =
      some (g', lost) → g'.present < (hdr.fecPacket payload).k.toNat ∨
        ∀ recovered, scheme.decode g'.k.toNat g'.m.toNat g'.symbols ≠ .ok recovered) :
    r'.writes.length ≤ r.writes.length + if hdr.packetType = .data then 1 else 0 := by
  obtain ⟨g', lost, arrived, -, writes⟩ := accept_cases grouped accepted
  obtain rfl := RxGroup.lost_eq_nil arrived (hopeless g' lost arrived)
  rw [writes, List.map_nil, List.append_nil]
  exact writeOwn_length r hdr payload

theorem Stuck.accept {id : UInt16} {a b : Nat} (stuck : r.Stuck id a b)
    (grouped : (hdr.fecPacket payload).Grouped) (own : (hdr.fecPacket payload).group = id)
    (inside : hdr.fecIndex.toNat < hdr.fecK.toNat + hdr.fecM.toNat)
    (notA : hdr.fecIndex.toNat ≠ a) (notB : hdr.fecIndex.toNat ≠ b)
    (accepted : r.accept scheme now hdr payload = some r') :
    r'.Stuck id a b ∧ r'.writes.length ≤ r.writes.length + if hdr.packetType = .data then 1
    else 0 := by
  obtain ⟨g, held, stuck⟩ := stuck
  have target := RxState.target_of_held now (own ▸ held)
  have kept : ∀ {g' lost}, (r.target now (hdr.fecPacket payload)).arrive scheme now
      (hdr.fecPacket payload) = some (g', lost) → g'.Stuck a b := fun arrived =>
    RxGroup.Stuck.arrive (target ▸ stuck) arrived inside notA notB
  refine ⟨?_, writes_of_hopeless grouped accepted fun g' lost arrived =>
    .inr fun recovered => (kept arrived).undecodable scheme recovered⟩
  obtain ⟨g', lost, arrived, groups, -⟩ := accept_cases grouped accepted
  refine ⟨g', ?_, kept arrived⟩
  rw [groups, own, AList.lookup_insert]

/-- Two packets of different lengths that open a group leave it stuck. -/
theorem stuck_of_two {first second : PacketHeader} {x y : Bytes} {r₁ r₂ : RxState} {id : UInt16}
    (empty : r.groups.lookup id = none)
    (opener : (first.fecPacket x).Grouped) (grouped : (second.fecPacket y).Grouped)
    (own : (first.fecPacket x).group = id) (own' : (second.fecPacket y).group = id)
    (two : 2 ≤ first.fecK.toNat)
    (inside : first.fecIndex.toNat < first.fecK.toNat + first.fecM.toNat)
    (inside' : second.fecIndex.toNat < second.fecK.toNat + second.fecM.toNat)
    (apart : second.fecIndex.toNat ≠ first.fecIndex.toNat) (differ : x.length ≠ y.length)
    (accepted : r.accept scheme now first x = some r₁)
    (accepted' : r₁.accept scheme now second y = some r₂) :
    r₂.Stuck id first.fecIndex.toNat second.fecIndex.toNat ∧
      r₂.writes.length ≤ (r.writes.length + if first.packetType = .data then 1 else 0) +
        if second.packetType = .data then 1 else 0 := by
  have fresh : r.target now (first.fecPacket x) = .new first.fecK first.fecM now :=
    RxState.target_of_vacant now (own ▸ empty)
  -- one symbol is not enough for two sources
  have small : ∀ g' lost, (r.target now (first.fecPacket x)).arrive scheme now
    (first.fecPacket x) = some (g', lost) → g'.present < (first.fecPacket x).k.toNat := by
    intro g' lost arrived
    rw [fresh] at arrived
    rw [RxGroup.present_of_first (p := first.fecPacket x) arrived inside]
    exact two
  have grown :=
    writes_of_hopeless opener accepted fun g' lost arrived => .inl (small g' lost arrived)
  obtain ⟨g₁, lost₁, arrived, groups, -⟩ := accept_cases opener accepted
  have slot : g₁.symbols.getD first.fecIndex.toNat none = some x := by
    rw [RxGroup.arrive_getD arrived inside]
    exact if_pos rfl
  have target : r₁.target now (second.fecPacket y) = g₁ := by
    refine RxState.target_of_held now ?_
    rw [own', groups, own, AList.lookup_insert]
  have stuck : ∀ g' lost, (r₁.target now (second.fecPacket y)).arrive scheme now
    (second.fecPacket y) = some (g', lost) → g'.Stuck first.fecIndex.toNat
    second.fecIndex.toNat := by
    intro g' lost arrived
    rw [target] at arrived
    refine ⟨x, y, ?_, ?_, differ⟩
    · rw [RxGroup.arrive_getD arrived inside']
      exact (if_neg apart).trans slot
    · rw [RxGroup.arrive_getD arrived inside']
      exact if_pos rfl
  have grown' := writes_of_hopeless grouped accepted' fun g' lost arrived =>
    .inr fun recovered => (stuck g' lost arrived).undecodable scheme recovered
  obtain ⟨g₂, lost₂, arrived', groups', -⟩ := accept_cases grouped accepted'
  refine ⟨⟨g₂, ?_, stuck g₂ lost₂ arrived'⟩, by omega⟩
  rw [groups', own', AList.lookup_insert]

end RxState

/-! ## Runs that do not deliver the group -/

namespace Tunnel

variable {tx : Config σ} {rx : Config τ} {s s' : Tunnel σ} {t t' : Tunnel τ}
  {packets : List Bytes} {sent : List Sent} {sid : SessionId}

/-- The packets arrive one after another. -/
def arrivals (env : Env) (source : SocketAddr) (xs : List Sent) : List (Env × Event) :=
  xs.map fun x => (env, .datagram x.wire source)

section Arrivals

variable {env : Env} {source : SocketAddr} {xs : List Sent}

theorem delivers_arrivals (pair : rx.Receives tx) (sealed : ∀ x ∈ sent, Sealed tx sid x)
    (some_ : ∀ x ∈ xs, x ∈ sent ∧ x.IsFec) :
    Delivers rx sid sent (arrivals env source xs) := by
  refine delivers_of_wires pair sealed fun turn member bytes source event => ?_
  obtain ⟨x, inside, rfl⟩ := List.mem_map.mp member
  cases event
  exact ⟨x, (some_ x inside).1, (some_ x inside).2, rfl⟩

theorem holds_arrivals (id : UInt16) (t : Tunnel τ) :
    Runs.Along (step rx) (Holds id) t (arrivals env source xs) := by
  intro left turn right mid split _ tick
  have member : turn ∈ arrivals env source xs := by
    rw [split]
    exact List.mem_append_right left List.mem_cons_self
  obtain ⟨x, -, rfl⟩ := List.mem_map.mp member
  cases tick

theorem run_unprotected (env : Env) (source : SocketAddr) (pair : rx.Receives tx)
    (running : Running sid t)
    (each : ∀ x ∈ xs, Sealed tx sid x ∧ x.hdr.packetType = .data ∧ x.hdr.fecM = 0) :
    ∃ t', run rx t (arrivals env source xs) = some t' ∧ Running sid t' ∧
      t'.tunWrites.length = t.tunWrites.length + xs.length := by
  induction xs generalizing t with
  | nil => exact ⟨t, rfl, running, rfl⟩
  | cons x xs ih =>
      obtain ⟨sealed, data, parity⟩ := each x List.mem_cons_self
      obtain ⟨accepts, stays⟩ := step_sent pair running sealed (.inl data) env source
      rw [RxState.accept_ungrouped fun grouped => grouped.2 parity, if_pos data] at accepts
      obtain ⟨mid, stepped, written⟩ := Option.map_eq_some_iff.mp accepts
      obtain ⟨t', ran, running', count⟩ := ih (stays mid stepped)
        fun y member => each y (List.mem_cons_of_mem _ member)
      refine ⟨t', Runs.run_cons_eq_some.mpr ⟨mid, stepped, ran⟩, running', ?_⟩
      have one : mid.tunWrites.length = t.tunWrites.length + 1 :=
        (congrArg (fun r => r.writes.length) written).trans List.length_append
      rw [count, one, List.length_cons]
      omega

theorem run_stuck (pair : rx.Receives tx) {id : UInt16} {a b : Nat} (running : Running sid t)
    (stuck : t.rxState.Stuck id a b)
    (each : ∀ x ∈ xs, Sealed tx sid x ∧ x.fecPacket.Grouped ∧ x.hdr.packetType = .data ∧
      x.fecPacket.group = id ∧ x.hdr.fecIndex.toNat < x.hdr.fecK.toNat + x.hdr.fecM.toNat ∧
      x.hdr.fecIndex.toNat ≠ a ∧ x.hdr.fecIndex.toNat ≠ b)
    (ran : run rx t (arrivals env source xs) = some t') :
    Running sid t' ∧ t'.tunWrites.length ≤ t.tunWrites.length + xs.length := by
  induction xs generalizing t with
  | nil =>
      cases ran
      exact ⟨running, Nat.le_refl _⟩
  | cons x xs ih =>
      obtain ⟨mid, stepped, rest⟩ := Runs.run_cons_eq_some.mp ran
      obtain ⟨sealed, grouped, data, own, inside, notA, notB⟩ := each x List.mem_cons_self
      obtain ⟨accepts, stays⟩ := step_sent pair running sealed (.inl data) env source
      rw [stepped, Option.map_some] at accepts
      obtain ⟨stuck', grown⟩ := stuck.accept grouped own inside notA notB accepts.symm
      obtain ⟨running', count⟩ := ih (stays mid stepped) stuck'
        (fun y member => each y (List.mem_cons_of_mem _ member)) rest
      refine ⟨running', Nat.le_trans count ?_⟩
      rw [if_pos data] at grown
      have one : mid.tunWrites.length ≤ t.tunWrites.length + 1 := grown
      rw [List.length_cons]
      omega

end Arrivals

/-- Whatever `k` symbols of the group arrive while it is held, in whatever order and
    however often, its packets are written once each and nothing else is written. -/
def DeliversGroup (rx : Config τ) (t : Tunnel τ) (s : Tunnel σ) (packets : List Bytes)
    (sent : List Sent) : Prop :=
  ∀ deliveries, Delivers rx s.session.id sent deliveries →
    Runs.Along (step rx) (Holds s.groupId) t deliveries →
    Reaches s.fecParams.k.toNat sent deliveries →
    ∃ t', run rx t deliveries = some t' ∧
      (t'.exit = none → ∃ written, t'.tunWrites = t.tunWrites ++ written ∧
        (written.map TunWrite.bytes).Perm packets)

section Fails

variable (fills : FillsGroup tx s packets sent) (pair : rx.Receives tx)
  (running : Running s.session.id t)

/-- The data packet of one source. -/
def FillsGroup.source (_ : FillsGroup tx s packets sent) (i : Nat) : FecPacket :=
  dataPacket s.fecParams s.groupId (UInt8.ofNat i) (packets.getD i [])

include fills in
theorem FillsGroup.exists_source {i : Nat} (inside : i < s.fecParams.k.toNat) :
    ∃ x ∈ sent, x.fecPacket = fills.source i := by
  have member : fills.source i ∈ sent.map Sent.fecPacket := by
    rw [fills.named]
    refine List.mem_append_left _ (List.mem_map.mpr ⟨(packets.getD i [], i), ?_, rfl⟩)
    rw [List.mem_zipIdx_iff_getElem?]
    have room : i < packets.length := fills.full ▸ inside
    simp [List.getElem?_eq_getElem room]
  obtain ⟨x, sent, named⟩ := List.mem_map.mp member
  exact ⟨x, sent, named⟩

include fills in
theorem FillsGroup.exists_sources {indexes : List Nat}
    (inside : ∀ i ∈ indexes, i < s.fecParams.k.toNat) :
    ∃ xs : List Sent, (∀ x ∈ xs, x ∈ sent) ∧
    xs.map Sent.fecPacket = indexes.map fills.source := by
  induction indexes with
  | nil => exact ⟨[], fun x member => absurd member List.not_mem_nil, rfl⟩
  | cons i indexes ih =>
      obtain ⟨x, sent, named⟩ := fills.exists_source (inside i List.mem_cons_self)
      obtain ⟨xs, others, rest⟩ := ih fun j member => inside j (List.mem_cons_of_mem _ member)
      refine ⟨x :: xs, fun y member => ?_, by rw [List.map_cons, named, rest, List.map_cons]⟩
      rcases List.mem_cons.mp member with rfl | later
      · exact sent
      · exact others y later

theorem index_of_source {i : Nat} (inside : i < s.fecParams.k.toNat) {x : Sent}
    (named : x.fecPacket = fills.source i) :
    x.hdr.packetType = .data ∧ x.hdr.fecIndex.toNat = i := by
  refine ⟨congrArg FecPacket.packetType named, ?_⟩
  have index : x.hdr.fecIndex = UInt8.ofNat i := congrArg FecPacket.index named
  rw [index, UInt8.toNat_ofNat', Nat.mod_eq_of_lt]
  exact Nat.lt_trans inside s.fecParams.k.toNat_lt

theorem indexes_of_sources {indexes : List Nat}
    (inside : ∀ i ∈ indexes, i < s.fecParams.k.toNat) {xs : List Sent}
    (named : xs.map Sent.fecPacket = indexes.map fills.source) :
    (xs.map fun x => x.hdr.fecIndex.toNat) = indexes ∧ ∀ x ∈ xs,
    x.hdr.packetType = .data := by
  induction xs generalizing indexes with
  | nil =>
      obtain rfl := List.map_eq_nil_iff.mp named.symm
      exact ⟨rfl, fun x member => absurd member List.not_mem_nil⟩
  | cons x xs ih =>
      cases indexes with
      | nil => cases named
      | cons i indexes =>
          rw [List.map_cons, List.map_cons, List.cons.injEq] at named
          obtain ⟨data, index⟩ := index_of_source fills (inside i List.mem_cons_self) named.1
          obtain ⟨rest, kinds⟩ :=
            ih (fun j member => inside j (List.mem_cons_of_mem _ member)) named.2
          refine ⟨by rw [List.map_cons, index, rest], fun y member => ?_⟩
          rcases List.mem_cons.mp member with rfl | later
          · exact data
          · exact kinds y later

include fills pair running in
theorem not_delivers_unprotected (positive : 0 < s.fecParams.k.toNat) (none_ : s.fecParams.m = 0) :
    ¬ DeliversGroup rx t s packets sent := by
  intro delivered
  have inside : ∀ i ∈ List.range s.fecParams.k.toNat, i < s.fecParams.k.toNat := fun i =>
    List.mem_range.mp
  obtain ⟨xs, all, named⟩ := fills.exists_sources inside
  obtain ⟨indexes, kinds⟩ := indexes_of_sources fills inside named
  have count : xs.length = packets.length := by
    have size := congrArg List.length indexes
    rw [List.length_map, List.length_range] at size
    rw [size, fills.full]
  obtain ⟨first, member⟩ := List.exists_mem_of_length_pos (l := xs)
    (by rw [count, fills.full]; exact positive)
  have chosen : ∀ x ∈ first :: xs, x ∈ xs := fun x inside => by
    rcases List.mem_cons.mp inside with rfl | later
    · exact member
    · exact later
  obtain ⟨t', ran, running', count'⟩ := run_unprotected (sampleEnv 0 0) (sampleAddr 1) pair
    running fun x (inside : x ∈ first :: xs) => by
      have picked := all x (chosen x inside)
      exact ⟨fills.sealed x picked, kinds x (chosen x inside),
        (fills.belongs picked).2.1.trans none_⟩
  obtain ⟨_, same, perm⟩ := delivered _
    (delivers_arrivals pair fills.sealed fun x inside =>
      ⟨all x (chosen x inside), .inl (kinds x (chosen x inside))⟩)
    (holds_arrivals _ t)
    ⟨xs, by rw [count, fills.full], indexes ▸ List.nodup_range, fun x inside =>
      ⟨all x inside, _, _, List.mem_map.mpr ⟨x, List.mem_cons_of_mem _ inside, rfl⟩⟩⟩
  obtain rfl := Option.some.inj (ran.symm.trans same)
  obtain ⟨written, appended, perm⟩ := perm running'.exit
  have size := perm.length_eq
  rw [appended, List.length_append] at count'
  rw [List.length_map] at size
  rw [size, List.length_cons, count] at count'
  omega

include fills in
theorem FillsGroup.exists_parity (redundant : 0 < s.fecParams.m.toNat) :
    ∃ y ∈ sent, y.fecPacket = parityPacket s.fecParams s.groupId packets
    ⟨0, redundant⟩ := by
  have member : parityPacket s.fecParams s.groupId packets ⟨0, redundant⟩ ∈
    sent.map Sent.fecPacket := by
    rw [fills.named, parityPackets_eq (fills.encodable redundant)]
    exact List.mem_append_right _ ((List.mem_ofFn' ..).mpr ⟨_, rfl⟩)
  obtain ⟨y, sent, named⟩ := List.mem_map.mp member
  exact ⟨y, sent, named⟩

include fills pair running in
theorem stuck_of_short (vacant : t.rxGroups.lookup s.groupId = none) {a : Nat}
    (short : (packets.getD a []).length < groupLen packets) (two : 2 ≤ s.fecParams.k.toNat)
    (redundant : 0 < s.fecParams.m.toNat) (inside : a < s.fecParams.k.toNat) {x y : Sent}
    (first : x ∈ sent) (second : y ∈ sent) (data : x.fecPacket = fills.source a)
    (parity : y.fecPacket = parityPacket s.fecParams s.groupId packets ⟨0, redundant⟩)
    (env : Env) (source : SocketAddr) (ran : run rx t (arrivals env source [x, y]) = some t') :
    Running s.session.id t' ∧ t'.rxState.Stuck s.groupId a s.fecParams.k.toNat ∧
      t'.tunWrites.length ≤ t.tunWrites.length + 1 := by
  obtain ⟨isFec, m, belongs⟩ := fills.belongs first
  obtain ⟨isFec', m', belongs'⟩ := fills.belongs second
  obtain ⟨kind, index⟩ := index_of_source fills inside data
  have index' : y.hdr.fecIndex.toNat = s.fecParams.k.toNat := by
    refine (congrArg (fun p => p.index.toNat) parity).trans ?_
    exact parityPacket_index (fills.encodable redundant) ⟨0, redundant⟩
  have hasParity : s.fecParams.m ≠ 0 := fun none_ => by
    rw [none_] at redundant
    exact absurd redundant (Nat.lt_irrefl 0)
  have payload : x.payload = packets.getD a [] := congrArg FecPacket.payload data
  have payload' : y.payload.length = groupLen packets :=
    (congrArg (fun p => p.payload.length) parity).trans (FecScheme.parity_length _)
  obtain ⟨mid, stepped, rest⟩ := Runs.run_cons_eq_some.mp ran
  obtain ⟨last, stepped', done⟩ := Runs.run_cons_eq_some.mp rest
  cases done
  obtain ⟨accepts, stays⟩ := step_sent pair running (fills.sealed x first) isFec env source
  obtain ⟨accepts', stays'⟩ :=
    step_sent pair (stays mid stepped) (fills.sealed y second) isFec' env source
  rw [stepped, Option.map_some] at accepts
  rw [stepped', Option.map_some] at accepts'
  have sizes : x.hdr.fecK = s.fecParams.k := belongs.shaped.size
  have sizes' : y.hdr.fecK = s.fecParams.k := belongs'.shaped.size
  have m : x.hdr.fecM = s.fecParams.m := m
  have m' : y.hdr.fecM = s.fecParams.m := m'
  obtain ⟨stuck, grown⟩ :=
    RxState.stuck_of_two vacant ⟨isFec, fun none_ => hasParity (m.symm.trans none_)⟩
    ⟨isFec', fun none_ => hasParity (m'.symm.trans none_)⟩ belongs.group belongs'.group
    (sizes ▸ two) (by rw [sizes, m, index]; omega)
    (by rw [sizes', m', index']; omega) (by omega) (by rw [payload, payload']; omega)
    accepts.symm accepts'.symm
  have isParity : y.hdr.packetType ≠ .data := by
    have fec : y.hdr.packetType = .fec := congrArg FecPacket.packetType parity
    rw [fec]
    decide
  rw [index, index'] at stuck
  rw [if_pos kind, if_neg isParity] at grown
  exact ⟨stays' t' stepped', stuck, grown⟩

/-- Among packets of different lengths, one is shorter than the longest, and it is not the
    only one. -/
theorem exists_short {p q : Bytes} (left : p ∈ packets) (right : q ∈ packets)
    (differ : p.length ≠ q.length) :
    ∃ a b, a < packets.length ∧ b < packets.length ∧ b ≠ a ∧
    (packets.getD a []).length < groupLen packets := by
  have shorter : ∃ short ∈ packets, short.length < groupLen packets := by
    by_contra none_
    simp only [not_exists, not_and, Nat.not_lt] at none_
    exact differ ((Nat.le_antisymm (length_le_groupLen left) (none_ p left)).trans
      (Nat.le_antisymm (length_le_groupLen right) (none_ q right)).symm)
  obtain ⟨short, member, less⟩ := shorter
  obtain ⟨long, member', longest⟩ := exists_length_eq_groupLen (List.ne_nil_of_mem member)
  obtain ⟨a, insideA, atA⟩ := List.getElem_of_mem member
  obtain ⟨b, insideB, atB⟩ := List.getElem_of_mem member'
  have apart : b ≠ a := by
    rintro rfl
    rw [← atA, atB, longest] at less
    exact absurd less (Nat.lt_irrefl _)
  refine ⟨a, b, insideA, insideB, apart, ?_⟩
  rwa [List.getD_eq_getElem _ _ insideA, atA]

/-- The indexes below `k` but two. -/
def withoutTwo (k a b : Nat) : List Nat := ((List.range k).erase a).erase b

theorem withoutTwo_nodup (k a b : Nat) : (withoutTwo k a b).Nodup :=
  (List.nodup_range.erase a).erase b

theorem mem_withoutTwo {k a b i : Nat} :
    i ∈ withoutTwo k a b ↔ i ≠ b ∧ i ≠ a ∧ i < k := by
  rw [withoutTwo, (List.nodup_range.erase a).mem_erase_iff, List.nodup_range.mem_erase_iff,
    List.mem_range]

theorem length_withoutTwo {k a b : Nat} (insideA : a < k) (insideB : b < k) (apart : b ≠ a) :
    (withoutTwo k a b).length = k - 2 := by
  rw [withoutTwo, List.length_erase_of_mem (by
      rw [List.nodup_range.mem_erase_iff, List.mem_range]
      exact ⟨apart, insideB⟩),
    List.length_erase_of_mem (List.mem_range.mpr insideA), List.length_range]
  omega

include fills pair running in
/-- A packet that is shorter than the group's longest is enough: without some other
    data packet, the group is never decoded. -/
theorem not_delivers_unequal (vacant : t.rxGroups.lookup s.groupId = none)
    (redundant : 0 < s.fecParams.m.toNat) {p q : Bytes} (left : p ∈ packets)
    (right : q ∈ packets) (differ : p.length ≠ q.length) :
    ¬ DeliversGroup rx t s packets sent := by
  intro delivered
  -- the short packet `a` arrives, and another one, `b`, is lost
  obtain ⟨a, b, insideA, insideB, apart, short⟩ := exists_short left right differ
  rw [fills.full] at insideA insideB
  have two : 2 ≤ s.fecParams.k.toNat := by omega
  have inside : ∀ i ∈ withoutTwo s.fecParams.k.toNat a b, i < s.fecParams.k.toNat :=
    fun i member => (mem_withoutTwo.mp member).2.2
  obtain ⟨x, first, data⟩ := fills.exists_source insideA
  obtain ⟨y, second, parity⟩ := fills.exists_parity redundant
  obtain ⟨xs, all, named⟩ := fills.exists_sources inside
  obtain ⟨indexes, kinds⟩ := indexes_of_sources fills inside named
  obtain ⟨kind, index⟩ := index_of_source fills insideA data
  have index' : y.hdr.fecIndex.toNat = s.fecParams.k.toNat :=
    (congrArg (fun p => p.index.toNat) parity).trans
      (parityPacket_index (fills.encodable redundant) ⟨0, redundant⟩)
  have size : xs.length = s.fecParams.k.toNat - 2 := by
    rw [← length_withoutTwo insideA insideB apart, ← indexes, List.length_map]
  have everywhere : ∀ z ∈ x :: y :: xs, z ∈ sent := by
    intro z member
    rcases List.mem_cons.mp member with rfl | later
    · exact first
    · rcases List.mem_cons.mp later with rfl | last
      · exact second
      · exact all z last
  obtain ⟨t', ran, perm⟩ := delivered (arrivals (sampleEnv 0 0) (sampleAddr 1) (x :: y :: xs))
    (delivers_arrivals pair fills.sealed fun z member =>
      ⟨everywhere z member, (fills.belongs (everywhere z member)).1⟩)
    (holds_arrivals _ t)
    ⟨x :: y :: xs, by simp only [List.length_cons, size]; omega, by
      rw [List.map_cons, List.map_cons, index, index', indexes, List.nodup_cons, List.nodup_cons]
      refine ⟨?_, fun member => absurd (inside _ member) (Nat.lt_irrefl _), withoutTwo_nodup ..⟩
      rw [List.mem_cons, not_or]
      exact ⟨by omega, fun member => absurd rfl (mem_withoutTwo.mp member).2.1⟩, fun z member =>
      ⟨everywhere z member, _, _, List.mem_map.mpr ⟨z, member, rfl⟩⟩⟩
  have split : arrivals (sampleEnv 0 0) (sampleAddr 1) (x :: y :: xs) =
      arrivals (sampleEnv 0 0) (sampleAddr 1) [x, y] ++ arrivals (sampleEnv 0 0)
        (sampleAddr 1) xs := rfl
  rw [split, run, Runs.run_append] at ran
  obtain ⟨mid, opened, rest⟩ := Option.bind_eq_some_iff.mp ran
  obtain ⟨opened_, stuck, one⟩ :=
    stuck_of_short fills pair running vacant short two redundant insideA
    first second data parity _ _ opened
  have hasParity : s.fecParams.m ≠ 0 := fun none_ => by
    rw [none_] at redundant
    exact absurd redundant (Nat.lt_irrefl 0)
  obtain ⟨running', few⟩ := run_stuck pair opened_ stuck (fun z member => by
    obtain ⟨isFec, m, belongs⟩ := fills.belongs (all z member)
    have place : z.hdr.fecIndex.toNat ∈ withoutTwo s.fecParams.k.toNat a b := by
      rw [← indexes]
      exact List.mem_map.mpr ⟨z, member, rfl⟩
    obtain ⟨-, notA, source⟩ := mem_withoutTwo.mp place
    have sizes : z.hdr.fecK = s.fecParams.k := belongs.shaped.size
    refine ⟨fills.sealed z (all z member), ⟨isFec, m ▸ hasParity⟩, kinds z member,
      belongs.group, ?_, notA, by omega⟩
    rw [sizes]
    omega) rest
  obtain ⟨written, appended, perm⟩ := perm running'.exit
  have length := perm.length_eq
  rw [List.length_map, fills.full] at length
  rw [appended, List.length_append] at few
  omega

end Fails

/-- The packets of a group reach a receiver that holds none under its id, whatever `k` of
    its symbols arrive, exactly when the group has parity and its packets have one length. -/
theorem delivers_group_iff {items : List (Env × Bytes)} (pair : rx.Receives tx)
    (empty : s.groupBuffer = []) (first : s.groupIndex = 0) (positive : 0 < s.fecParams.k.toNat)
    (size : items.length = s.fecParams.k.toNat) (handed : Runs.run (handOver tx) s items = some s')
    (all : s'.sent.length = s.sent.length + s.fecParams.k.toNat + s.fecParams.m.toNat)
    (running : Running s.session.id t) (vacant : t.rxGroups.lookup s.groupId = none) :
    DeliversGroup rx t s (items.map Prod.snd) (s'.sent.drop s.sent.length) ↔
      0 < s.fecParams.m ∧ ∀ p ∈ items.map Prod.snd, ∀ q ∈ items.map Prod.snd,
      p.length = q.length := by
  have fills := fillsGroup_of_handOver empty first positive size handed all
  constructor
  · intro delivered
    have redundant : 0 < s.fecParams.m := by
      by_contra none_
      rw [UInt8.not_lt, UInt8.le_zero_iff] at none_
      exact not_delivers_unprotected fills pair running positive none_ delivered
    refine ⟨redundant, fun p left q right => ?_⟩
    by_contra differ
    exact not_delivers_unequal fills pair running vacant (UInt8.lt_iff_toNat_lt.mp redundant) left
      right differ delivered
  · rintro ⟨redundant, equal⟩ deliveries delivers holds reaches
    exact fills.delivered pair (UInt8.lt_iff_toNat_lt.mp redundant) equal running.own vacant
      delivers holds reaches

/-- A receiver that wrote a packet of an old group with the same id, and holds another group. -/
def sampleReceived : Tunnel Unit where
  __ := sampleTunnel ⟨1, 2⟩
  rxGroups := (∅ : Table UInt16 RxGroup).insert 9 (.new 1 2 0)
  tunWrites := [⟨.recovered 0 1, [5]⟩]

/-- Two packets of one length, with one parity packet. -/
theorem equal_group_delivered : ∃ s',
    Runs.run (handOver (sampleConfig .initiatorToResponder .responderToInitiator))
    (sampleTunnel ⟨2, 1⟩) [(sampleEnv 0 0, [1]), (sampleEnv 0 0, [2])] = some s' ∧
    DeliversGroup (sampleConfig .responderToInitiator .initiatorToResponder) sampleReceived
      (sampleTunnel ⟨2, 1⟩) [[1], [2]] s'.sent := by
  have sent : ((Runs.run (handOver (sampleConfig .initiatorToResponder .responderToInitiator))
      (sampleTunnel ⟨2, 1⟩) [(sampleEnv 0 0, [1]), (sampleEnv 0 0, [2])]).map fun s' =>
        s'.sent.length) = some 3 := by
    decide +kernel
  obtain ⟨s', handed, all⟩ := Option.map_eq_some_iff.mp sent
  exact ⟨s', handed, (delivers_group_iff (t := sampleReceived) (sampleConfig_receives _ _) rfl rfl
    (by decide) rfl handed all ⟨rfl, rfl, rfl⟩ (by decide)).mpr ⟨by decide, by decide⟩⟩

/-- Packets of one and two bytes: the receiver may lose the longer one for good. -/
theorem unequal_group_lost : ¬ ∀ (items : List (Env × Bytes)) (s' : Tunnel Unit),
    items.length = 2 → Runs.run
      (handOver (sampleConfig .initiatorToResponder .responderToInitiator))
      (sampleTunnel ⟨2, 1⟩) items = some s' → s'.sent.length = 3 →
    DeliversGroup (sampleConfig .responderToInitiator .initiatorToResponder)
    (sampleTunnel ⟨1, 2⟩) (sampleTunnel ⟨2, 1⟩) (items.map Prod.snd) s'.sent := by
  intro delivers
  have sent : ((Runs.run (handOver (sampleConfig .initiatorToResponder .responderToInitiator))
      (sampleTunnel ⟨2, 1⟩) [(sampleEnv 0 0, [1]), (sampleEnv 0 0, [2, 3])]).map fun s' =>
        s'.sent.length) = some 3 := by
    decide +kernel
  obtain ⟨s', handed, all⟩ := Option.map_eq_some_iff.mp sent
  have fills := fillsGroup_of_handOver rfl rfl (by decide) rfl handed all
  refine not_delivers_unequal fills (t := sampleTunnel ⟨1, 2⟩) (sampleConfig_receives _ _)
    ⟨rfl, rfl, rfl⟩ rfl (by decide) (p := [1]) (q := [2, 3]) (by decide) (by decide)
      (by decide) ?_
  exact delivers [(sampleEnv 0 0, [1]), (sampleEnv 0 0, [2, 3])] s' rfl handed all

end Tunnel

end Rustnies
