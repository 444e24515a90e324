import Rustnies.Tunnel.GroupBounds
import Rustnies.Tunnel.Groups

/-! # The delivery flags of a group

A group flags each source it has handed to the TUN device, and recovery hands over
only sources that are not flagged. `Arrives` says what one packet does to the flags.
It follows that, while a group is held, every one of its sources is written at most
once: by its data packet, or by recovery.
-/

namespace Rustnies

variable {σ : Type}

theorem getD_set {α : Type} (l : List α) (i j : Nat) (a d : α) :
    (l.set i a).getD j d = if i = j ∧ j < l.length then a else l.getD j d := by
  simp only [List.getD_eq_getElem?_getD, List.getElem?_set]
  by_cases same : i = j
  · subst same
    by_cases inside : i < l.length
    · simp [inside]
    · simp [inside]
  · simp [same]

namespace RxGroup

theorem mem_of_getD_eq_some {α : Type} {l : List (Option α)} {i : Nat} {x : α}
    (found : l.getD i none = some x) : some x ∈ l := by
  rw [List.getD_eq_getElem?_getD] at found
  cases slot : l[i]? with
  | none =>
      rw [slot] at found
      cases found
  | some s =>
      rw [slot, Option.getD_some] at found
      exact found ▸ List.mem_of_getElem? slot

variable {scheme : FecScheme} {now : Instant} {g g' : RxGroup} {p : FecPacket}
  {lost : List (Nat × Bytes)} {i : Nat}

/-- Whether the source was handed to the TUN device. -/
def flag (g : RxGroup) (i : Nat) : Bool := g.delivered.getD i false

def filled (g : RxGroup) (i : Nat) : Bool := (g.symbols.getD i none).isSome

/-- Every source that the group holds is flagged. -/
def Tracks (g : RxGroup) : Prop := ∀ i < g.k.toNat, g.filled i → g.flag i

@[simp]
theorem flag_new (k m : UInt8) (now : Instant) (i : Nat) :
    (RxGroup.new k m now).flag i = false := by
  simp [flag, new]

@[simp]
theorem filled_new (k m : UInt8) (now : Instant) (i : Nat) :
    (RxGroup.new k m now).filled i = false := by
  simp [filled, new]

theorem tracks_new (k m : UInt8) (now : Instant) : (RxGroup.new k m now).Tracks := by
  intro i _ filled
  rw [filled_new] at filled
  cases filled

theorem flag_lt (flagged : g.flag i) : i < g.k.toNat := by
  rw [← g.flags]
  by_contra outside
  rw [flag, List.getD_eq_default _ _ (Nat.le_of_not_lt outside)] at flagged
  cases flagged

theorem flag_markDecoded : g.markDecoded.flag i = decide (i < g.k.toNat) := by
  unfold flag markDecoded
  by_cases source : i < g.k.toNat
  · rw [List.getD_replicate _ source, decide_eq_true source]
  · rw [List.getD_eq_default _ _ (by simpa using Nat.le_of_not_lt source), decide_eq_false source]

/-! ## Storing a symbol -/

theorem store_flag {index k : Nat} {payload : Bytes} {isData : Bool} (tracks : g.Tracks)
    (own : k = g.k.toNat) (shaped : isData = decide (index < k))
    (stored : g.store index k payload isData = some g') (i : Nat) :
    g'.flag i = (g.flag i || (isData && decide (i = index))) := by
  subst own shaped
  unfold store at stored
  split at stored
  · cases stored
  · rename_i slot found
    have there : g.symbols.getD index none = slot := by
      rw [List.getD_eq_getElem?_getD, found, Option.getD_some]
    simp only at stored
    split at stored
    · rename_i fresh
      split at stored
      · cases stored
        simp only [Bool.and_eq_true, decide_eq_true_eq] at fresh
        simp only [flag, getD_set]
        by_cases same : index = i
        · subst same
          simp [fresh.2, g.flags]
        · have apart : ¬ i = index := fun other => same other.symm
          simp [same, apart]
      · cases stored
    · rename_i old
      cases stored
      -- a source that is stored again was flagged the first time
      by_cases again : index < g.k.toNat ∧ i = index
      · obtain ⟨source, rfl⟩ := again
        have held : g.filled i := by
          rw [filled, there]
          cases slot with
          | none => simp [source] at old
          | some _ => rfl
        have known := tracks i source held
        change g.flag i = _
        simp [known]
      · have none_ : (decide (index < g.k.toNat) && decide (i = index)) = false := by
          simpa using again
        rw [none_, Bool.or_false]
        rfl

theorem store_filled {index k : Nat} {payload : Bytes} {isData : Bool}
    (stored : g.store index k payload isData = some g') (i : Nat) :
    g'.filled i = (g.filled i || decide (i = index)) := by
  obtain ⟨-, -, symbols, -, inside⟩ := store_keeps stored
  rw [filled, symbols, getD_set, filled]
  by_cases same : index = i
  · subst same
    simp [inside]
  · have apart : ¬ i = index := fun other => same other.symm
    simp [same, apart]

theorem store_tracks {index k : Nat} {payload : Bytes} {isData : Bool} (tracks : g.Tracks)
    (own : k = g.k.toNat) (shaped : isData = decide (index < k))
    (stored : g.store index k payload isData = some g') : g'.Tracks := by
  intro i source held
  obtain ⟨sameK, -⟩ := store_keeps stored
  rw [store_filled stored] at held
  rw [store_flag tracks own shaped stored]
  rw [sameK] at source
  simp only [Bool.or_eq_true, Bool.and_eq_true, decide_eq_true_eq] at held ⊢
  rcases held with before | rfl
  · exact .inl (tracks i source before)
  · exact .inr ⟨by rw [shaped, own, decide_eq_true source], rfl⟩

/-! ## Recovery -/

theorem mem_lost {recovered : List Bytes} {e : Nat × Bytes} :
    e ∈ g.lost recovered ↔
      recovered[e.1]? = some e.2 ∧ e.1 < g.k.toNat ∧ g.flag e.1 = false := by
  obtain ⟨i, sym⟩ := e
  have unflagged : i < g.k.toNat → (g.delivered.getD i true = g.flag i) := by
    intro source
    rw [← g.flags] at source
    rw [flag, List.getD_eq_getElem _ _ source, List.getD_eq_getElem _ _ source]
  simp only [lost, List.mem_filterMap, Prod.exists, List.mem_zipIdx_iff_getElem?, g.flags]
  constructor
  · rintro ⟨sym', i', found, made⟩
    split at made
    · rename_i fresh
      cases made
      simp only [Bool.and_eq_true, decide_eq_true_eq, Bool.not_eq_true'] at fresh
      rw [unflagged fresh.1] at fresh
      exact ⟨found, fresh⟩
    · cases made
  · rintro ⟨found, source, fresh⟩
    refine ⟨sym, i, found, ?_⟩
    rw [unflagged source, fresh, decide_eq_true source]
    rfl

theorem lost_nodup (g : RxGroup) (recovered : List Bytes) :
    ((g.lost recovered).map Prod.fst).Nodup := by
  have indexes : (recovered.zipIdx.map Prod.snd).Nodup := by
    rw [List.zipIdx_map_snd]
    exact List.nodup_range'
  refine List.Nodup.sublist ?_ indexes
  rw [lost]
  induction recovered.zipIdx with
  | nil => exact .slnil
  | cons e rest ih =>
      simp only [List.filterMap_cons, List.map_cons]
      split
      · exact ih.cons _
      · rename_i kept made
        split at made
        · cases made
          exact ih.cons_cons _
        · cases made

theorem tryRecover_cases (scheme : FecScheme) (g : RxGroup) (k : Nat) :
    g.tryRecover scheme k = (g, []) ∨
    ∃ recovered, g.decoded = false ∧ k ≤ g.present ∧
      scheme.decode g.k.toNat g.m.toNat g.symbols = .ok recovered ∧
      g.tryRecover scheme k = (g.markDecoded, g.lost recovered) := by
  unfold tryRecover
  split
  · rename_i ready
    simp only [Bool.and_eq_true, Bool.not_eq_true', decide_eq_true_eq] at ready
    split
    · exact .inl rfl
    · rename_i recovered decoded
      exact .inr ⟨recovered, ready.1, ready.2, decoded, rfl⟩
  · exact .inl rfl

/-- What the arrival of a packet does to the flags of its group. -/
structure Arrives (g : RxGroup) (p : FecPacket) (g' : RxGroup) (lost : List (Nat × Bytes)) :
    Prop where
  flags : ∀ i, g'.flag i ↔ g.flag i ∨ (p.packetType = .data ∧ i = p.index.toNat) ∨
    i ∈ lost.map Prod.fst
  fresh : ∀ i ∈ lost.map Prod.fst, g.flag i = false ∧
    ¬ (p.packetType = .data ∧ i = p.index.toNat)
  nodup : (lost.map Prod.fst).Nodup
  tracks : g'.Tracks

theorem Arrives.of_tryRecover (scheme : FecScheme) (k : Nat) {mid : RxGroup} (tracks : mid.Tracks)
    (flags : ∀ i, mid.flag i ↔ g.flag i ∨ (p.packetType = .data ∧ i = p.index.toNat)) :
    Arrives g p (mid.tryRecover scheme k).1 (mid.tryRecover scheme k).2 := by
  have unflagged : ∀ {i}, mid.flag i = false →
      g.flag i = false ∧ ¬ (p.packetType = .data ∧ i = p.index.toNat) := by
    intro i down
    have both := mt (flags i).mpr (by simp [down])
    simp only [not_or, Bool.not_eq_true] at both
    exact both
  rcases tryRecover_cases scheme mid k with same | ⟨recovered, -, -, decoded, same⟩
  · rw [same]
    exact ⟨fun i =>
      by simp [flags], fun i member => absurd member List.not_mem_nil, List.nodup_nil, tracks⟩
  · rw [same]
    have size := FecScheme.decode_length decoded
    have handed : ∀ i, i ∈ (mid.lost recovered).map Prod.fst ↔ i < mid.k.toNat ∧
      mid.flag i = false := by
      intro i
      simp only [List.mem_map, mem_lost]
      constructor
      · rintro ⟨e, ⟨-, fresh⟩, rfl⟩
        exact fresh
      · rintro ⟨source, down⟩
        rw [← size] at source
        exact ⟨(i, recovered[i]), ⟨List.getElem?_eq_getElem source, size ▸ source, down⟩,
          rfl⟩
    refine ⟨fun i => ?_, fun i member => unflagged ((handed i).mp member).2,
      mid.lost_nodup recovered, ?_⟩
    · rw [flag_markDecoded, decide_eq_true_eq, ← or_assoc, ← flags, handed]
      constructor
      · intro source
        cases up : mid.flag i with
        | true => exact .inl rfl
        | false => exact .inr ⟨source, rfl⟩
      · rintro (up | ⟨source, -⟩)
        · exact flag_lt up
        · exact source
    · intro i source _
      rw [flag_markDecoded]
      exact decide_eq_true source

theorem arrive_spec (tracks : g.Tracks) (shaped : p.Shaped g.k)
    (arrived : g.arrive scheme now p = some (g', lost)) : Arrives g p g' lost := by
  by_cases outside : p.k.toNat + p.m.toNat ≤ p.index.toNat
  · rw [arrive_outside outside] at arrived
    cases arrived
    -- an index outside the code is no source
    have parity : ¬ p.packetType = .data := by
      rw [shaped.sources, ← shaped.size, UInt8.lt_iff_toNat_lt]
      omega
    exact ⟨fun i =>
      by simp [parity, refresh, flag], fun i member => absurd member List.not_mem_nil,
      List.nodup_nil, tracks⟩
  · rw [arrive_inside outside] at arrived
    obtain ⟨mid, stored, recovered⟩ := Option.map_eq_some_iff.mp arrived
    have own : p.k.toNat = (g.refresh now).k.toNat := by
      rw [shaped.size]
      rfl
    have kind : decide (p.packetType = .data) = decide (p.index.toNat < p.k.toNat) := by
      simp only [shaped.sources, ← shaped.size, UInt8.lt_iff_toNat_lt]
    have tracked : (g.refresh now).Tracks := tracks
    have result := Arrives.of_tryRecover scheme p.k.toNat
      (store_tracks tracked own kind stored) (g := g) (p := p) fun i => by
        rw [store_flag tracked own kind stored]
        simp [refresh, flag]
    rwa [recovered] at result

theorem arrive_filled (arrived : g.arrive scheme now p = some (g', lost)) :
    (∀ i, g.filled i → g'.filled i) ∧
    (p.index.toNat < p.k.toNat + p.m.toNat → g'.filled p.index.toNat) := by
  by_cases outside : p.k.toNat + p.m.toNat ≤ p.index.toNat
  · rw [arrive_outside outside] at arrived
    cases arrived
    exact ⟨fun i held => held, fun inside => absurd inside (Nat.not_lt.mpr outside)⟩
  · rw [arrive_inside outside] at arrived
    obtain ⟨mid, stored, recovered⟩ := Option.map_eq_some_iff.mp arrived
    have same := (tryRecover_keeps scheme mid p.k.toNat).2.2
    rw [recovered] at same
    have filled : ∀ i, g'.filled i = (g.filled i || decide (i = p.index.toNat)) := by
      intro i
      rw [RxGroup.filled, same]
      exact store_filled stored i
    exact ⟨fun i held => by simp [filled, held], fun _ => by simp [filled]⟩

end RxGroup

/-! ## Every source once -/

/-- The source of group `id` that a write hands over, if it is one of that group. -/
def TunWrite.slotIn (id : UInt16) (w : TunWrite) : Option Nat :=
  match w.origin with
  | .data hdr => if hdr.fecGroup = id ∧ hdr.fecM ≠ 0 then some hdr.fecIndex.toNat else none
  | .recovered group i => if group = id then some i else none

namespace RxState

variable {scheme : FecScheme} {now : Instant} {r r' : RxState} {id : UInt16} {k : UInt8}

/-- The sources of group `id` that were written, in order. -/
def slots (r : RxState) (id : UInt16) : List Nat := r.writes.filterMap (·.slotIn id)

/-- No source of the group was written twice, and the group knows those written. -/
structure Once (id : UInt16) (k : UInt8) (r : RxState) : Prop where
  nodup : (r.slots id).Nodup
  held : ∀ g, r.groups.lookup id = some g → g.k = k ∧ g.Tracks
  flagged : ∀ i ∈ r.slots id, ∃ g, r.groups.lookup id = some g ∧ g.flag i

theorem Once.congr (once : Once id k r) (slots : r'.slots id = r.slots id)
    (lookup : r'.groups.lookup id = r.groups.lookup id) : Once id k r' where
  nodup := slots ▸ once.nodup
  held := lookup ▸ once.held
  flagged := by
    rw [slots, lookup]
    exact once.flagged

theorem slots_write (r : RxState) (id : UInt16) (hdr : PacketHeader) (payload : Bytes) :
    (r.write hdr payload).slots id =
      r.slots id ++ if hdr.fecGroup = id ∧ hdr.fecM ≠ 0 then [hdr.fecIndex.toNat] else [] := by
  simp only [slots, write, List.filterMap_append, List.filterMap_cons, List.filterMap_nil,
    TunWrite.slotIn]
  split <;> rename_i found <;> split at found <;> cases found
  · rw [if_neg ‹_›]
  · rw [if_pos ‹_›]

theorem target_of_held (now : Instant) {p : FecPacket} {g : RxGroup}
    (held : r.groups.lookup p.group = some g) : r.target now p = g := by
  rw [target, held, Option.getD_some]

theorem target_of_vacant (now : Instant) {p : FecPacket}
    (vacant : r.groups.lookup p.group = none) : r.target now p = .new p.k p.m now := by
  rw [target, vacant, Option.getD_none]

theorem exists_held_of_suppresses {p : FecPacket} (suppressed : r.suppresses p = true) :
    ∃ g, r.groups.lookup p.group = some g := by
  cases found : r.groups.lookup p.group with
  | none => simp [suppresses, found] at suppressed
  | some g => exact ⟨g, rfl⟩

theorem suppresses_eq_flag (now : Instant) {p : FecPacket} (source : p.index < (r.target now p).k) :
    r.suppresses p = (r.target now p).flag p.index.toNat := by
  unfold target at source ⊢
  unfold suppresses
  cases found : r.groups.lookup p.group with
  | none => exact (RxGroup.flag_new ..).symm
  | some g =>
      rw [found, Option.getD_some] at source
      exact if_neg (UInt8.not_le.mpr source)

theorem Once.target (once : Once id k r) (now : Instant) {p : FecPacket} (own : p.group = id)
    (size : p.k = k) :
    (r.target now p).k = k ∧ (r.target now p).Tracks ∧ ∀ i ∈ r.slots id,
    (r.target now p).flag i := by
  unfold RxState.target
  cases found : r.groups.lookup p.group with
  | none =>
      refine ⟨size, RxGroup.tracks_new p.k p.m now, fun i written => ?_⟩
      obtain ⟨g, held, -⟩ := once.flagged i written
      rw [← own, found] at held
      cases held
  | some g =>
      rw [own] at found
      obtain ⟨sameK, tracks⟩ := once.held g found
      refine ⟨sameK, tracks, fun i written => ?_⟩
      obtain ⟨g', held, flagged⟩ := once.flagged i written
      rw [found] at held
      cases held
      exact flagged

/-- A packet of a group writes itself unless it was delivered before, and then what
    recovery hands over. -/
theorem accept_cases {hdr : PacketHeader} {payload : Bytes}
    (grouped : (hdr.fecPacket payload).Grouped)
    (accepted : r.accept scheme now hdr payload = some r') :
    ∃ g' lost,
      (r.target now (hdr.fecPacket payload)).arrive scheme now (hdr.fecPacket payload) =
      some (g', lost) ∧ r'.groups = r.groups.insert (hdr.fecPacket payload).group g' ∧
      r'.writes = (r.writeOwn hdr payload).writes ++
        lost.map (fun e => ⟨.recovered (hdr.fecPacket payload).group e.1, e.2⟩) := by
  rw [accept_grouped grouped] at accepted
  obtain ⟨⟨g', lost⟩, arrived, rfl⟩ := Option.map_eq_some_iff.mp accepted
  rw [target_congr (writeOwn_groups r hdr payload)] at arrived
  refine ⟨g', lost, arrived, ?_, rfl⟩
  rw [← writeOwn_groups r hdr payload]

theorem slots_recovered (id group : UInt16) (lost : List (Nat × Bytes)) :
    (lost.map fun e => (⟨.recovered group e.1, e.2⟩ : TunWrite)).filterMap (·.slotIn id) =
      if group = id then lost.map Prod.fst else [] := by
  rw [List.filterMap_map]
  by_cases own : group = id
  · simp [own, TunWrite.slotIn]
  · simp [own, TunWrite.slotIn, Function.comp_def]

theorem slots_accept {hdr : PacketHeader} {payload : Bytes}
    (grouped : (hdr.fecPacket payload).Grouped) (own : (hdr.fecPacket payload).group = id)
    (shaped : (hdr.fecPacket payload).Shaped (r.target now (hdr.fecPacket payload)).k)
    (accepted : r.accept scheme now hdr payload = some r') :
    ∃ g' lost,
      (r.target now (hdr.fecPacket payload)).arrive scheme now (hdr.fecPacket payload) =
      some (g', lost) ∧ r'.groups = r.groups.insert id g' ∧
      r'.writes = (r.writeOwn hdr payload).writes ++
        lost.map (fun e => ⟨.recovered id e.1, e.2⟩) ∧
      r'.slots id = r.slots id ++
        (if hdr.packetType = .data ∧
          (r.target now (hdr.fecPacket payload)).flag hdr.fecIndex.toNat = false
          then [hdr.fecIndex.toNat] else []) ++ lost.map Prod.fst := by
  obtain ⟨g', lost, arrived, groups, writes⟩ := accept_cases grouped accepted
  rw [own] at groups writes
  refine ⟨g', lost, arrived, groups, writes, ?_⟩
  rw [slots, writes, List.filterMap_append, slots_recovered, if_pos rfl]
  congr 1
  by_cases data : hdr.packetType = .data
  · have same := suppresses_eq_flag now (shaped.sources.mp data)
    unfold writeOwn
    rw [same]
    simp only [data, true_and]
    split
    · exact (slots_write r id hdr payload).trans
        (congrArg _ ((if_pos ⟨own, grouped.2⟩).trans (if_pos ‹_›).symm))
    · rw [if_neg ‹_›, List.append_nil]
      rfl
  · rw [writeOwn, if_neg fun fresh => data fresh.1, if_neg fun fresh => data fresh.1,
      List.append_nil]
    rfl

theorem Once.accept_own {hdr : PacketHeader} {payload : Bytes} (once : Once id k r)
    (grouped : (hdr.fecPacket payload).Grouped) (own : (hdr.fecPacket payload).group = id)
    (shaped : (hdr.fecPacket payload).Shaped k)
    (accepted : r.accept scheme now hdr payload = some r') : Once id k r' := by
  obtain ⟨size, tracks, known⟩ := once.target now (p := hdr.fecPacket payload) own shaped.size
  obtain ⟨g', lost, arrived, groups, -, slots⟩ :=
    slots_accept grouped own (size ▸ shaped) accepted
  have arrives := RxGroup.arrive_spec tracks (size ▸ shaped) arrived
  generalize written : (if hdr.packetType = .data ∧
    (r.target now (hdr.fecPacket payload)).flag hdr.fecIndex.toNat = false
      then [hdr.fecIndex.toNat] else []) = own_ at slots
  have fresh : ∀ i ∈ own_, hdr.packetType = .data ∧ i = hdr.fecIndex.toNat ∧
      (r.target now (hdr.fecPacket payload)).flag i = false := by
    intro i member
    rw [← written] at member
    split at member
    · rename_i fresh
      obtain rfl := List.mem_singleton.mp member
      exact ⟨fresh.1, rfl, fresh.2⟩
    · exact absurd member List.not_mem_nil
  have single : own_.Nodup := by
    rw [← written]
    split
    · exact List.nodup_singleton _
    · exact List.nodup_nil
  have lookup : r'.groups.lookup id = some g' := by
    rw [groups, AList.lookup_insert]
  refine ⟨?_, fun g held => ?_, fun i member => ⟨g', lookup, ?_⟩⟩
  · rw [slots, List.nodup_append, List.nodup_append]
    refine ⟨⟨once.nodup, single, ?_⟩, arrives.nodup, ?_⟩
    · rintro i before j new rfl
      have down := (fresh i new).2.2
      rw [known i before] at down
      cases down
    · rintro i before j new rfl
      obtain ⟨down, other⟩ := arrives.fresh i new
      rcases List.mem_append.mp before with old | now
      · rw [known i old] at down
        cases down
      · exact other ⟨(fresh i now).1, (fresh i now).2.1⟩
  · rw [lookup] at held
    cases held
    exact ⟨(RxGroup.arrive_keeps arrived).1.trans size, arrives.tracks⟩
  · rw [slots] at member
    rw [arrives.flags]
    rcases List.mem_append.mp member with before | recovered
    · rcases List.mem_append.mp before with old | now
      · exact .inl (known i old)
      · exact .inr (.inl ⟨(fresh i now).1, (fresh i now).2.1⟩)
    · exact .inr (.inr recovered)

theorem Once.accept_other {hdr : PacketHeader} {payload : Bytes} (once : Once id k r)
    (other : ¬ ((hdr.fecPacket payload).Grouped ∧ (hdr.fecPacket payload).group = id))
    (accepted : r.accept scheme now hdr payload = some r') : Once id k r' := by
  have written : ¬ (hdr.packetType = .data ∧ hdr.fecGroup = id ∧ hdr.fecM ≠ 0) := by
    rintro ⟨data, own, parity⟩
    exact other ⟨⟨.inl data, parity⟩, own⟩
  have admitted : ∀ {r' : RxState}, r' = r ∨
    (hdr.packetType = .data ∧ r' = r.write hdr payload) → r'.slots id = r.slots id := by
    rintro r' (rfl | ⟨data, rfl⟩)
    · rfl
    · rw [slots_write, if_neg fun own => written ⟨data, own⟩, List.append_nil]
  by_cases grouped : (hdr.fecPacket payload).Grouped
  · have apart : (hdr.fecPacket payload).group ≠ id := fun own => other ⟨grouped, own⟩
    obtain ⟨g', lost, -, groups, writes⟩ := accept_cases grouped accepted
    have slots : r'.slots id = (r.writeOwn hdr payload).slots id := by
      rw [slots, writes, List.filterMap_append, slots_recovered, if_neg apart, List.append_nil]
      rfl
    refine once.congr (slots.trans (admitted ?_)) ?_
    · unfold writeOwn
      split
      · exact .inr ⟨(‹_ ∧ _›).1, rfl⟩
      · exact .inl rfl
    · rw [groups, AList.lookup_insert_ne (Ne.symm apart)]
  · rw [accept_ungrouped grouped] at accepted
    cases accepted
    refine once.congr (admitted ?_) ?_
    · split
      · exact .inr ⟨‹_›, rfl⟩
      · exact .inl rfl
    · split <;> rfl

theorem Once.evict (once : Once id k r)
    (kept : ∀ g, r.groups.lookup id = some g → now < g.deadline) :
    Once id k (r.evict now) := by
  refine once.congr rfl ?_
  rw [RxState.evict, Table.lookup_retain]
  cases found : r.groups.lookup id with
  | none => rfl
  | some g => simp [Option.filter, kept g found]

end RxState

namespace Tunnel

variable {τ : Type} {tx : Config σ} {rx : Config τ} {s s' : Tunnel σ} {t t' : Tunnel τ}
  {turns deliveries : List (Env × Event)} {id : UInt16} {k : UInt8}

/-- The turn does not evict the group. -/
def Holds (id : UInt16) (t : Tunnel τ) (turn : Env × Event) : Prop :=
  turn.2 = .fecTick → ∀ g, t.rxGroups.lookup id = some g → turn.1.now < g.deadline

theorem step_once {turn : Env × Event} (stepped : step rx t turn = some t')
    (holds : Holds id t turn)
    (shaped : ∀ bytes source hdr payload, turn.2 = .datagram bytes source →
      rx.openDatagram t.session.id bytes =
      .ok (hdr, payload) → (hdr.fecPacket payload).Grouped → (hdr.fecPacket payload).Shaped k)
    (once : t.rxState.Once id k) : t'.rxState.Once id k := by
  rcases step_react stepped with same | reacts
  · rw [same]
    exact once
  obtain ⟨env, e⟩ := turn
  cases e with
  | datagram bytes source =>
      cases opened : rx.openDatagram t.session.id bytes with
      | error why =>
          simp only [RxState.react, opened, Option.some.injEq] at reacts
          exact reacts ▸ once
      | ok packet =>
          obtain ⟨hdr, payload⟩ := packet
          simp only [RxState.react, opened] at reacts
          by_cases own : (hdr.fecPacket payload).Grouped ∧ (hdr.fecPacket payload).group = id
          · exact once.accept_own own.1 own.2
              (shaped bytes source hdr payload rfl opened own.1) reacts
          · exact once.accept_other own reacts
  | fecTick =>
      simp only [RxState.react, Option.some.injEq] at reacts
      exact reacts ▸ once.evict (holds rfl)
  | _ =>
      simp only [RxState.react, Option.some.injEq] at reacts
      exact reacts ▸ once

/-- While the receiver holds a group with parity, it writes every source of the group
    at most once, whatever is replayed to it. -/
theorem sources_written_once (ran : run tx s turns = some s') (silent : s.sent = [])
    (room : s.groupIndex < k)
    (steady : Runs.Along (step tx) (fun mid _ => mid.fecParams.k = k) s turns)
    (fresh : Fresh t) (delivers : Delivers rx t.session.id s'.sent deliveries)
    (holds : Runs.Along (step rx) (Holds id) t deliveries)
    (received : run rx t deliveries = some t') : (t'.rxState.slots id).Nodup := by
  have shapes := shaped_of_run steady ran room silent
  have start : t.rxState.Once id k := by
    refine ⟨?_, fun g held => ?_, fun i written => ?_⟩
    · simp [RxState.slots, rxState, fresh.tunWrites]
    · simp [rxState, fresh.rxGroups] at held
    · simp [RxState.slots, rxState, fresh.tunWrites] at written
  refine (Runs.invariant_along
    (fun mid : Tunnel τ => mid.session.id = t.session.id ∧ mid.rxState.Once id k)
    (fun mid turn mid' ok stepped inv => ?_) (holds.and_mem delivers) received
      ⟨rfl, start⟩).2.nodup
  refine ⟨(step_id stepped).trans inv.1, step_once stepped ok.1 ?_ inv.2⟩
  intro bytes source hdr payload event opened grouped
  rw [inv.1] at opened
  obtain ⟨p, sent, rfl, rfl⟩ := ok.2 bytes source hdr payload event opened grouped.1
  exact shapes p sent grouped.1

/-- A data packet that is replayed while its group is held. -/
theorem replay_in_held_group : ∃ s' p t',
    run (sampleConfig .initiatorToResponder .responderToInitiator) (sampleTunnel ⟨1, 2⟩)
      [(sampleEnv 0 0, .tun [1])] = some s' ∧ p ∈ s'.sent ∧
    run (sampleConfig .responderToInitiator .initiatorToResponder) (sampleTunnel ⟨1, 2⟩)
      (List.replicate 2 (sampleEnv 0 0, .datagram p.wire (sampleAddr 1))) = some t' ∧
    (t'.rxState.slots 0).Nodup := by
  have runs : ((run (sampleConfig .initiatorToResponder .responderToInitiator)
    (sampleTunnel ⟨1, 2⟩) [(sampleEnv 0 0, .tun [1])]).bind fun s' =>
    s'.sent.head?.bind fun p =>
        (run (sampleConfig .responderToInitiator .initiatorToResponder) (sampleTunnel ⟨1, 2⟩)
          (List.replicate 2 (sampleEnv 0 0, .datagram p.wire (sampleAddr 1)))).map fun _ =>
            p.hdr.packetType) = some .data := by
    decide +kernel
  obtain ⟨s', ran, runs⟩ := Option.bind_eq_some_iff.mp runs
  obtain ⟨p, first, runs⟩ := Option.bind_eq_some_iff.mp runs
  obtain ⟨t', received, kind⟩ := Option.map_eq_some_iff.mp runs
  have sent : p ∈ s'.sent := List.mem_of_mem_head? first
  refine ⟨s', p, t', ran, sent, received, ?_⟩
  refine sources_written_once (k := 1) ran rfl (by decide) ?_ ⟨rfl, rfl, rfl, rfl⟩
    ?_ ?_ received
  · exact Runs.along_cons.mpr ⟨rfl, fun mid _ => Runs.along_nil _ mid⟩
  · refine delivers_of_wires (sampleConfig_receives _ _) (fun _ => sealed_of_run rfl ran)
      fun turn member bytes source event => ?_
    rw [List.eq_of_mem_replicate member] at event
    cases event
    exact ⟨p, sent, .inl kind, rfl⟩
  · refine Runs.along_cons.mpr ⟨nofun, fun mid _ => ?_⟩
    exact Runs.along_cons.mpr ⟨nofun, fun mid _ => Runs.along_nil _ mid⟩

/-! ## Replays that no group remembers -/

/-- Every data packet that the sender `s` may send is written at most once by the
    receiver `t`, whatever is replayed. -/
def DataWrittenOnce (tx : Config σ) (rx : Config τ) (s : Tunnel σ) (t : Tunnel τ) : Prop :=
  ∀ turns s' deliveries t', run tx s turns = some s' →
    Delivers rx t.session.id s'.sent deliveries → run rx t deliveries = some t' →
    ∀ p ∈ s'.sent, p.hdr.packetType = .data → t'.tunWrites.count
      ⟨.data p.hdr, p.payload⟩ ≤ 1

/-- A packet, a tick at the given time, and the same packet again. -/
def replayAt (now : Instant) (wire : Bytes) : List (Env × Event) :=
  [(sampleEnv 0 0, .datagram wire (sampleAddr 1)), (sampleEnv now 0, .fecTick),
    (sampleEnv now 0, .datagram wire (sampleAddr 1))]

theorem not_dataWrittenOnce_of_replay {params : FecParams} (now : Instant)
    (twice : ((run (sampleConfig .initiatorToResponder .responderToInitiator) (sampleTunnel params)
      [(sampleEnv 0 0, .tun [1])]).bind fun s' => s'.sent.head?.bind fun p =>
        (run (sampleConfig .responderToInitiator .initiatorToResponder) (sampleTunnel ⟨1, 2⟩)
          (replayAt now p.wire)).map fun t' =>
            (decide (p.hdr.packetType = .data), t'.tunWrites.count ⟨.data p.hdr, p.payload⟩)) =
      some (true, 2)) :
    ¬ DataWrittenOnce (sampleConfig .initiatorToResponder .responderToInitiator)
      (sampleConfig .responderToInitiator .initiatorToResponder) (sampleTunnel params)
      (sampleTunnel ⟨1, 2⟩) := by
  intro once
  obtain ⟨s', ran, rest⟩ := Option.bind_eq_some_iff.mp twice
  obtain ⟨p, first, rest⟩ := Option.bind_eq_some_iff.mp rest
  obtain ⟨t', received, counted⟩ := Option.map_eq_some_iff.mp rest
  have sent : p ∈ s'.sent := List.mem_of_mem_head? first
  simp only [Prod.mk.injEq, decide_eq_true_eq] at counted
  have delivers : Delivers (sampleConfig .responderToInitiator .initiatorToResponder) 7 s'.sent
      (replayAt now p.wire) := by
    refine delivers_of_wires (sampleConfig_receives _ _) (fun _ => sealed_of_run rfl ran)
      fun turn member bytes source event => ?_
    simp only [replayAt, List.mem_cons, List.not_mem_nil, or_false] at member
    rcases member with rfl | rfl | rfl <;> cases event <;> exact ⟨p, sent, .inl counted.1, rfl⟩
  have bound := once _ s' _ t' ran delivers received p sent counted.1
  omega

/-- A data packet without parity is written again at any time, and one with parity
    after its group was evicted. -/
theorem replayed_data_written_twice :
    ¬ DataWrittenOnce (sampleConfig .initiatorToResponder .responderToInitiator)
      (sampleConfig .responderToInitiator .initiatorToResponder) (sampleTunnel ⟨1, 0⟩)
      (sampleTunnel ⟨1, 2⟩) ∧
    ¬ DataWrittenOnce (sampleConfig .initiatorToResponder .responderToInitiator)
      (sampleConfig .responderToInitiator .initiatorToResponder) (sampleTunnel ⟨1, 2⟩)
      (sampleTunnel ⟨1, 2⟩) :=
  ⟨not_dataWrittenOnce_of_replay 0 (by decide +kernel),
    not_dataWrittenOnce_of_replay RX_GROUP_TTL (by decide +kernel)⟩

end Tunnel

end Rustnies
