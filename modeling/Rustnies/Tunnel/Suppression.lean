import Rustnies.Tunnel.Delivery

/-! # When a group id comes round again

A data packet is suppressed when the group held under its id has flagged its index.
The id is a counter of 16 bits, and every packet that arrives under it extends the
life of the group, so the group may be one of 65536 flushes ago. As long as every
packet finds a group that its own group opened, a suppressed packet is one whose
payload recovery has handed over.
-/

namespace Rustnies

variable {σ τ : Type}

/-! ## What recovery hands over -/

namespace RxGroup

/-- The symbols of the group come from the sources of one buffer. -/
structure HoldsOf (scheme : FecScheme) (buffer : List Bytes) (g : RxGroup) : Prop where
  sources : ∀ i x, i < g.k.toNat → g.symbols.getD i none = some x → buffer[i]? = some x
  parity : ∀ i x, g.k.toNat ≤ i → g.symbols.getD i none = some x → ∃ params group,
    params.k = g.k ∧ ∃ p ∈ parityPackets scheme params group buffer, p.index.toNat = i ∧
    p.payload = x

variable {scheme : FecScheme} {buffer recovered : List Bytes} {g : RxGroup}

/-- With `k` symbols of which one source is missing, some symbol is parity. -/
theorem exists_parity_slot {i : Nat} (enough : g.k.toNat ≤ g.present) (inside : i < g.k.toNat)
    (missing : g.filled i = false) :
    ∃ j x, g.k.toNat ≤ j ∧ g.symbols.getD j none = some x := by
  by_contra noParity
  simp only [not_exists, not_and] at noParity
  have beyond : (g.symbols.drop g.k.toNat).countP Option.isSome = 0 := by
    rw [List.countP_eq_zero]
    intro slot member filled
    obtain ⟨n, bound, rfl⟩ := List.getElem_of_mem member
    obtain ⟨x, held⟩ := Option.isSome_iff_exists.mp filled
    rw [List.getElem_drop] at held
    have within : g.k.toNat + n < g.symbols.length := by
      rw [List.length_drop] at bound
      omega
    refine noParity (g.k.toNat + n) x (Nat.le_add_right _ _) ?_
    rw [List.getD_eq_getElem _ _ within, held]
  have width : (g.symbols.take g.k.toNat).length = g.k.toNat := by
    rw [List.length_take, g.slots]
    omega
  have few : (g.symbols.take g.k.toNat).countP Option.isSome < g.k.toNat := by
    have most := List.countP_le_length (p := Option.isSome) (l := g.symbols.take g.k.toNat)
    rw [width] at most
    refine Nat.lt_of_le_of_ne most fun full => ?_
    have all := List.countP_eq_length.mp (full.trans width.symm)
    have there : i < (g.symbols.take g.k.toNat).length := width.symm ▸ inside
    have held := all _ (List.getElem_mem there)
    rw [List.getElem_take] at held
    have within : i < g.symbols.length := by
      rw [g.slots]
      omega
    rw [filled, List.getD_eq_getElem _ _ within, held] at missing
    cases missing
  have total : g.present = (g.symbols.take g.k.toNat).countP Option.isSome := by
    rw [present, ← List.take_append_drop g.k.toNat g.symbols, List.countP_append, beyond,
      List.take_append_drop]
    rfl
  omega

theorem unfilled_of_lost (tracks : g.Tracks) {e : Nat × Bytes} (member : e ∈ g.lost recovered) :
    recovered[e.1]? = some e.2 ∧ e.1 < g.k.toNat ∧ g.filled e.1 = false := by
  obtain ⟨found, inside, unflagged⟩ := mem_lost.mp member
  refine ⟨found, inside, ?_⟩
  cases held : g.filled e.1 with
  | false => rfl
  | true =>
      rw [tracks e.1 inside held] at unflagged
      cases unflagged

theorem HoldsOf.parity_length (holds : g.HoldsOf scheme buffer) {j : Nat} {x : Bytes}
    (beyond : g.k.toNat ≤ j) (slot : g.symbols.getD j none = some x) :
    x.length = groupLen buffer := by
  obtain ⟨params, group, -, p, isParity, -, rfl⟩ := holds.parity j x beyond slot
  exact length_of_mem_parity isParity

theorem HoldsOf.lost (holds : g.HoldsOf scheme buffer) (tracks : g.Tracks)
    (enough : g.k.toNat ≤ g.present)
    (decoded : scheme.decode g.k.toNat g.m.toNat g.symbols = .ok recovered) :
    ∀ e ∈ g.lost recovered, ∃ payload zeros, buffer[e.1]? = some payload ∧
      e.2 = payload ++ List.replicate zeros 0 ∧ e.2.length = groupLen buffer := by
  intro e member
  obtain ⟨found, inside, missing⟩ := unfilled_of_lost tracks member
  obtain ⟨j, x, beyond, slot⟩ := exists_parity_slot enough inside missing
  obtain ⟨params, group, size, p, isParity, index, payload⟩ := holds.parity j x beyond slot
  have encodable := encodable_of_mem isParity
  obtain ⟨i, rfl⟩ := exists_parityPacket isParity
  have full : buffer.length = g.k.toNat := encodable.full.trans (congrArg UInt8.toNat size)
  obtain ⟨rfl, positive, small⟩ := FecScheme.decode_valid decoded
  -- every symbol is as long as the parity
  obtain ⟨len, equal⟩ := FecScheme.decode_equal_lengths decoded
  obtain rfl : len = groupLen buffer :=
    (equal x (mem_of_getD_eq_some slot)).symm.trans (holds.parity_length beyond slot)
  have lengths : ∀ j, (padded g.k.toNat buffer j).length = groupLen buffer :=
    fun j => padded_length full j
  have same := FecScheme.decode_reedSolomon positive small lengths g.slots ?_ ?_ enough
  · rw [same] at decoded
    cases decoded
    have source : e.2 = padded g.k.toNat buffer ⟨e.1, inside⟩ := by
      rw [List.getElem?_eq_getElem (by simpa using inside), List.getElem_ofFn] at found
      exact (Option.some.inj found).symm
    have there : e.1 < buffer.length := full ▸ inside
    refine ⟨buffer[e.1], groupLen buffer - buffer[e.1].length, List.getElem?_eq_getElem there, ?_,
      source ▸ lengths _⟩
    rw [source, padded, List.getD_eq_getElem _ _ there]
    rfl
  · intro j
    cases held : g.symbols.getD j none with
    | none => exact .inl rfl
    | some y =>
        have own := holds.sources j y j.isLt held
        have width := equal y (mem_of_getD_eq_some held)
        refine .inr (congrArg some ?_)
        rw [padded, List.getD_eq_getElem?_getD, own, Option.getD_some, padTo_self width]
  · intro i'
    cases held : g.symbols.getD (g.k.toNat + i') none with
    | none => exact .inl rfl
    | some y =>
        obtain ⟨params', group', size', q, isParity', index', payload'⟩ :=
          holds.parity _ y (Nat.le_add_right _ _) held
        have encodable' := encodable_of_mem isParity'
        obtain ⟨i'', rfl⟩ := exists_parityPacket isParity'
        obtain ⟨k, m⟩ := params'
        obtain rfl : k = g.k := size'
        rw [parityPacket_index encodable'] at index'
        refine .inr (congrArg some (payload'.symm.trans ?_))
        exact FecScheme.parity_congr _ _ (Nat.add_left_cancel index')

section Arrive

variable {now : Instant} {g' : RxGroup} {p : FecPacket} {lost : List (Nat × Bytes)}

theorem arrive_decoded (arrived : g.arrive scheme now p = some (g', lost)) (done : g.decoded) :
    g'.decoded := by
  by_cases outside : p.k.toNat + p.m.toNat ≤ p.index.toNat
  · rw [arrive_outside outside] at arrived
    cases arrived
    exact done
  · rw [arrive_inside outside] at arrived
    obtain ⟨mid, stored, made⟩ := Option.map_eq_some_iff.mp arrived
    have still : mid.decoded = true := (store_keeps stored).2.2.2.1.trans done
    rcases tryRecover_cases scheme mid p.k.toNat with idle | ⟨recovered, fresh, -⟩
    · rw [idle] at made
      cases made
      exact still
    · rw [still] at fresh
      cases fresh

/-- A packet with which sources are recovered completes the symbols that they are decoded from. -/
theorem arrive_recovers (tracks : g.Tracks) (shaped : p.Shaped g.k)
    (arrived : g.arrive scheme now p = some (g', lost)) {e : Nat × Bytes} (member : e ∈ lost) :
    ∃ (mid : RxGroup) (recovered : List Bytes), mid.Tracks ∧ mid.k.toNat ≤ mid.present ∧
      scheme.decode mid.k.toNat mid.m.toNat mid.symbols = .ok recovered ∧
      g' = mid.markDecoded ∧ lost = mid.lost recovered := by
  by_cases outside : p.k.toNat + p.m.toNat ≤ p.index.toNat
  · rw [arrive_outside outside] at arrived
    cases arrived
    cases member
  · rw [arrive_inside outside] at arrived
    obtain ⟨mid, stored, made⟩ := Option.map_eq_some_iff.mp arrived
    have size : p.k.toNat = mid.k.toNat := by
      rw [shaped.size, (store_keeps stored).1]
      rfl
    have tracked : mid.Tracks := by
      refine store_tracks (g := g.refresh now) tracks (congrArg UInt8.toNat shaped.size) ?_ stored
      simp only [shaped.sources, shaped.size, UInt8.lt_iff_toNat_lt]
    rcases tryRecover_cases scheme mid p.k.toNat
      with idle | ⟨recovered, -, enough, decoded, made'⟩
    · rw [idle] at made
      cases made
      cases member
    · rw [made'] at made
      cases made
      exact ⟨mid, recovered, tracked, size ▸ enough, decoded, rfl, rfl⟩

theorem arrive_lost_parity (tracks : g.Tracks) (shaped : p.Shaped g.k)
    (arrived : g.arrive scheme now p = some (g', lost)) {e : Nat × Bytes} (member : e ∈ lost) :
    e.1 < g'.k.toNat ∧ g'.decoded ∧ ∃ j x, g'.k.toNat ≤ j ∧
    g'.symbols.getD j none = some x := by
  obtain ⟨mid, recovered, tracked, enough, -, rfl, rfl⟩ :=
    arrive_recovers tracks shaped arrived member
  obtain ⟨-, inside, missing⟩ := unfilled_of_lost tracked member
  exact ⟨inside, rfl, exists_parity_slot enough inside missing⟩

theorem arrive_lost (tracks : g.Tracks) (shaped : p.Shaped g.k)
    (arrived : g.arrive scheme now p = some (g', lost)) (holds : g'.HoldsOf scheme buffer) :
    ∀ e ∈ lost, ∃ payload zeros, buffer[e.1]? = some payload ∧
      e.2 = payload ++ List.replicate zeros 0 ∧ e.2.length = groupLen buffer := by
  intro e member
  obtain ⟨mid, recovered, tracked, enough, decoded, rfl, rfl⟩ :=
    arrive_recovers tracks shaped arrived member
  have before : mid.HoldsOf scheme buffer := ⟨holds.sources, holds.parity⟩
  exact before.lost tracked enough decoded e member

end Arrive

end RxGroup

/-! ## Two tunnels and what is between them -/

/-- What opened the group that is held under an id: the epoch of the packet that did,
    and how much had been written by then. -/
structure Opening where
  epoch : Nat
  written : Nat

/-- A sender, and the epoch of every packet it sent: the number of groups flushed before
    it. Packets of one epoch belong to one group. -/
structure History (σ : Type) where
  sender : Tunnel σ
  flushed : Nat := 0
  epochs : List Nat := []

/-- The sender and a receiver. -/
structure Link (σ τ : Type) extends History σ where
  receiver : Tunnel τ
  /-- The data and parity packets that arrived, by their places among those sent. -/
  arrived : List Nat := []
  opened : UInt16 → Opening := fun _ => ⟨0, 0⟩

inductive LinkEvent where
  /-- A turn of the sender, with whatever it hears from its peer. -/
  | send (turn : Env × Event)
  /-- A data or parity packet arrives, once, in any order, from any address. -/
  | arrive (place : Nat) (env : Env) (source : SocketAddr)
  /-- Any other turn of the receiver. -/
  | hear (turn : Env × Event)

/-- A datagram of the event opens to no data or parity packet. -/
def Event.quiet (cfg : Config σ) (sid : SessionId) : Event → Bool
  | .datagram bytes _ =>
      match cfg.openDatagram sid bytes with
      | .error _ => true
      | .ok (hdr, _) => !(hdr.packetType = .data ∨ hdr.packetType = .fec)
  | _ => true

namespace History

/-- The history after a turn of the sender. -/
def after (l : History σ) (s : Tunnel σ) : History σ where
  sender := s
  flushed := if s.groupId = l.sender.groupId then l.flushed else l.flushed + 1
  epochs := l.epochs ++ List.replicate (s.sent.length - l.sender.sent.length) l.flushed

/-- The packet at a place among those sent. -/
structure SentAs (l : History σ) (place : Nat) (p : Sent) (epoch : Nat) : Prop where
  sent : l.sender.sent[place]? = some p
  epoch : l.epochs[place]? = some epoch

end History

namespace Link

/-- The receiver's side after the arrival of a packet. -/
def afterArrival (l : Link σ τ) (place epoch : Nat) (p : Sent) (t : Tunnel τ) : Link σ τ :=
  { l with
    receiver := t
    arrived := place :: l.arrived
    opened := if (l.receiver.rxGroups.lookup p.hdr.fecGroup).isSome then l.opened
      else Function.update l.opened p.hdr.fecGroup ⟨epoch, l.receiver.tunWrites.length⟩ }

variable (tx : Config σ) (rx : Config τ)

def step (l : Link σ τ) : LinkEvent → Option (Link σ τ)
  | .send turn => (Tunnel.step tx l.sender turn).map fun s => { l with toHistory := l.after s }
  | .arrive place env source =>
      match l.sender.sent[place]?, l.epochs[place]? with
      | some p, some epoch =>
          if place ∈ l.arrived ∨ ¬ (p.hdr.packetType = .data ∨ p.hdr.packetType = .fec)
            then none
          else (Tunnel.step rx l.receiver (env, .datagram p.wire source)).map
            (l.afterArrival place epoch p)
      | _, _ => none
  | .hear turn =>
      if turn.2.quiet rx l.receiver.session.id then
        (Tunnel.step rx l.receiver turn).map fun t => { l with receiver := t }
      else none

/-- A packet that goes into a group finds no group under its id, or one that a packet of
    its own group opened, with as many sources; and it is numbered among the sources
    exactly when it is one. -/
def Unmixed (l : Link σ τ) : LinkEvent → Prop
  | .arrive place _ _ => ∀ p epoch, l.SentAs place p epoch → p.hdr.fecM ≠ 0 →
      (p.hdr.packetType = .data → p.hdr.fecIndex < p.hdr.fecK) ∧
      ∀ g, l.receiver.rxGroups.lookup p.hdr.fecGroup = some g →
        (l.opened p.hdr.fecGroup).epoch = epoch ∧ g.k = p.hdr.fecK
  | _ => True

/-- A data packet that finds its group decoded is as long as the parity that the group
    holds: all sources were padded to that length, and are recovered with it. -/
def Unpadded (l : Link σ τ) : LinkEvent → Prop
  | .arrive place _ _ => ∀ p epoch, l.SentAs place p epoch → p.hdr.packetType = .data →
      p.hdr.fecM ≠ 0 → ∀ g, l.receiver.rxGroups.lookup p.hdr.fecGroup =
      some g → g.decoded → ∀ j x, g.k.toNat ≤ j → g.symbols.getD j none =
      some x → x.length = p.payload.length
  | _ => True

/-- A data packet that arrives while the receiver is running is written, or the group of
    the packet handed over its payload before. -/
def WrittenOrRecovered (l : Link σ τ) : LinkEvent → Prop
  | .arrive place env source => ∀ p epoch l',
      l.SentAs place p epoch → p.hdr.packetType = .data → l.receiver.exit = none →
      l.step tx rx (.arrive place env source) = some l' →
      ⟨.data p.hdr, p.payload⟩ ∈ l'.receiver.tunWrites.drop l.receiver.tunWrites.length ∨
      ((l.opened p.hdr.fecGroup).epoch = epoch ∧
        ⟨.recovered p.hdr.fecGroup p.hdr.fecIndex.toNat, p.payload⟩ ∈
          l.receiver.tunWrites.drop (l.opened p.hdr.fecGroup).written)
  | _ => True

end Link

/-! ## What the sender sends -/

/-- Sources are added to the buffers, and none is taken out. -/
def Extends (buffers buffers' : Nat → List Bytes) : Prop :=
  ∀ (epoch i : Nat) (x : Bytes), (buffers epoch)[i]? = some x → (buffers' epoch)[i]? = some x

namespace History

/-- What is sent are the packets of the buffers of the epochs: each source once, and the
    parity of the epochs that are over. -/
structure Sourced (tx : Config σ) (buffers : Nat → List Bytes) (l : History σ) : Prop where
  sealed : ∀ p ∈ l.sender.sent, Sealed tx l.sender.session.id p
  count : l.epochs.length = l.sender.sent.length
  filling : buffers l.flushed = l.sender.groupBuffer
  later : ∀ epoch, l.flushed < epoch → buffers epoch = []
  index : l.sender.groupIndex.toNat = l.sender.groupBuffer.length
  small : l.sender.groupIndex.toNat < 255
  data : ∀ place p epoch, l.SentAs place p epoch → p.hdr.packetType = .data →
    (buffers epoch)[p.hdr.fecIndex.toNat]? = some p.payload
  once : ∀ place place' p p' epoch, l.SentAs place p epoch → l.SentAs place' p' epoch →
    p.hdr.packetType = .data → p'.hdr.packetType = .data → p.hdr.fecIndex =
      p'.hdr.fecIndex → place = place'
  parity : ∀ place p epoch, l.SentAs place p epoch → p.hdr.packetType = .fec → epoch <
    l.flushed ∧ ∃ params group, params.k = p.hdr.fecK ∧
    p.fecPacket ∈ parityPackets tx.fec params group (buffers epoch)

variable {tx : Config σ} {l : History σ} {buffers : Nat → List Bytes}
  {place epoch : Nat} {p : Sent}

theorem SentAs.unique {p' : Sent} {epoch' : Nat} (first : l.SentAs place p epoch)
    (second : l.SentAs place p' epoch') :
    p = p' ∧ epoch = epoch' :=
  ⟨Option.some.inj (first.sent.symm.trans second.sent),
    Option.some.inj (first.epoch.symm.trans second.epoch)⟩

theorem sentAs_after {s : Tunnel σ} {packets : List Sent}
    (sent : s.sent = l.sender.sent ++ packets) (count : l.epochs.length = l.sender.sent.length)
    (now : (l.after s).SentAs place p epoch) :
    l.SentAs place p epoch ∨
      ∃ i, place = l.sender.sent.length + i ∧ packets[i]? = some p ∧ epoch = l.flushed := by
  obtain ⟨isSent, labelled⟩ := now
  simp only [after, sent, List.length_append, Nat.add_sub_cancel_left] at isSent labelled
  by_cases old : place < l.sender.sent.length
  · rw [List.getElem?_append_left old] at isSent
    rw [List.getElem?_append_left (count ▸ old)] at labelled
    exact .inl ⟨isSent, labelled⟩
  · have after := Nat.le_of_not_lt old
    rw [List.getElem?_append_right after] at isSent
    rw [List.getElem?_append_right (count ▸ after)] at labelled
    refine .inr ⟨place - l.sender.sent.length, (Nat.add_sub_of_le after).symm, isSent, ?_⟩
    exact List.eq_of_mem_replicate (List.mem_of_getElem? labelled)

theorem SentAs.after {s : Tunnel σ} {packets : List Sent}
    (sent : s.sent = l.sender.sent ++ packets) (before : l.SentAs place p epoch) :
    (l.after s).SentAs place p epoch := by
  obtain ⟨isSent, labelled⟩ := before
  refine ⟨?_, ?_⟩
  · simp only [History.after, sent]
    rw [List.getElem?_append_left (List.getElem?_eq_some_iff.mp isSent).1, isSent]
  · simp only [History.after]
    rw [List.getElem?_append_left (List.getElem?_eq_some_iff.mp labelled).1, labelled]

/-- A turn that adds sources to the group being filled, and sends them, or parity of the
    group if it is over. -/
theorem Sourced.extend (sourced : l.Sourced tx buffers) {s : Tunnel σ} {packets : List Sent}
    (added : List Bytes) (emits : Tunnel.Emits tx l.sender packets s)
    (data : ∀ i p, packets[i]? = some p → p.hdr.packetType = .data → i = 0 ∧
      p.hdr.fecIndex.toNat = l.sender.groupBuffer.length ∧ added[0]? = some p.payload)
    (parity : ∀ p ∈ packets, p.hdr.packetType = .fec → s.groupId ≠ l.sender.groupId ∧
      ∃ params group, params.k = p.hdr.fecK ∧ p.fecPacket ∈ parityPackets tx.fec params group
      (l.sender.groupBuffer ++ added))
    (filling : (s.groupId = l.sender.groupId ∧ s.groupBuffer = l.sender.groupBuffer ++ added) ∨
      (s.groupId ≠ l.sender.groupId ∧ s.groupBuffer = []))
    (index : s.groupIndex.toNat = s.groupBuffer.length) (small : s.groupIndex.toNat < 255) :
    ∃ buffers', (l.after s).Sourced tx buffers' ∧ Extends buffers buffers' := by
  have own : Function.update buffers l.flushed (l.sender.groupBuffer ++ added) l.flushed =
      l.sender.groupBuffer ++ added := Function.update_self ..
  have other : ∀ {e}, e ≠ l.flushed →
      Function.update buffers l.flushed (l.sender.groupBuffer ++ added) e = buffers e :=
    fun apart => Function.update_of_ne apart ..
  have grown : Extends buffers
    (Function.update buffers l.flushed (l.sender.groupBuffer ++ added)) := by
    intro e i x held
    by_cases same : e = l.flushed
    · subst same
      rw [sourced.filling] at held
      rw [own, List.getElem?_append_left (List.getElem?_eq_some_iff.mp held).1, held]
    · rwa [other same]
  have flushed : l.flushed ≤ (l.after s).flushed := by
    simp only [after]
    split <;> omega
  -- an earlier data packet of the epoch has an earlier index
  have fresh : ∀ {place i : Nat} {p q : Sent}, l.SentAs place p l.flushed → p.hdr.packetType =
    .data → packets[i]? = some q → q.hdr.packetType = .data → p.hdr.fecIndex ≠
    q.hdr.fecIndex := by
    intro place i p q before isData new newData same
    have inside := (List.getElem?_eq_some_iff.mp (sourced.data place p l.flushed before isData)).1
    rw [sourced.filling, same, (data i q new newData).2.1] at inside
    exact absurd inside (Nat.lt_irrefl _)
  refine ⟨_, ⟨?_, ?_, ?_, ?_, index, small, ?_, ?_, ?_⟩, grown⟩
  · intro p member
    have member : p ∈ l.sender.sent ++ packets := emits.sent ▸ member
    have id : (l.after s).sender.session.id = l.sender.session.id := emits.id
    rw [id]
    rcases List.mem_append.mp member with old | new
    · exact sourced.sealed p old
    · exact emits.all p new
  · simp only [after, List.length_append, List.length_replicate, sourced.count, emits.sent]
    omega
  · rcases filling with ⟨same, buffer⟩ | ⟨changed, buffer⟩
    · rw [show (l.after s).flushed = l.flushed from if_pos same, own]
      exact buffer.symm
    · rw [show (l.after s).flushed = l.flushed + 1 from if_neg changed, other (Nat.succ_ne_self _),
        sourced.later _ (Nat.lt_succ_self _)]
      exact buffer.symm
  · intro e later
    rw [other (by omega)]
    exact sourced.later e (by omega)
  · intro place p e now isData
    rcases sentAs_after emits.sent sourced.count now with before | ⟨i, -, new, rfl⟩
    · exact grown e _ _ (sourced.data place p e before isData)
    · obtain ⟨-, last, payload⟩ := data i p new isData
      rw [own, last, List.getElem?_append_right (Nat.le_refl _), Nat.sub_self, payload]
  · intro place place' p p' e now now' isData isData' same
    rcases sentAs_after emits.sent sourced.count now with before | ⟨i, rfl, new, rfl⟩
    · rcases sentAs_after emits.sent sourced.count now' with before' | ⟨i', rfl, new', rfl⟩
      · exact sourced.once place place' p p' e before before' isData isData' same
      · exact absurd same (fresh before isData new' isData')
    · rcases sentAs_after emits.sent sourced.count now' with before' | ⟨i', rfl, new', -⟩
      · exact absurd same.symm (fresh before' isData' new isData)
      · rw [(data i p new isData).1, (data i' p' new' isData').1]
  · intro place p e now isParity
    rcases sentAs_after emits.sent sourced.count now with before | ⟨i, -, new, rfl⟩
    · obtain ⟨past, params, group, size, member⟩ := sourced.parity place p e before isParity
      refine ⟨Nat.lt_of_lt_of_le past flushed, params, group, size, ?_⟩
      rwa [other (Nat.ne_of_lt past)]
    · obtain ⟨changed, params, group, size, member⟩ :=
        parity p (List.mem_of_getElem? new) isParity
      refine ⟨?_, params, group, size, by rwa [own]⟩
      rw [show (l.after s).flushed = l.flushed + 1 from if_neg changed]
      exact Nat.lt_succ_self _

theorem Sourced.joins (sourced : l.Sourced tx buffers)
    (packet : p.fecPacket = dataPacket l.sender.fecParams l.sender.groupId l.sender.groupIndex
      p.payload) :
    p.hdr.packetType = .data ∧ p.hdr.fecIndex.toNat = l.sender.groupBuffer.length := by
  have kind : p.hdr.packetType = .data := congrArg FecPacket.packetType packet
  have index : p.hdr.fecIndex = l.sender.groupIndex := congrArg FecPacket.index packet
  exact ⟨kind, by rw [index, sourced.index]⟩

theorem parity_of_sublist {scheme : FecScheme} {params : FecParams} {group : UInt16}
    {buffer : List Bytes} {parities : List Sent}
    (sublist : List.Sublist (parities.map Sent.fecPacket)
      (parityPackets scheme params group buffer)) (member : p ∈ parities) :
    p.hdr.packetType = .fec ∧ p.fecPacket ∈ parityPackets scheme params group buffer ∧
    params.k = p.hdr.fecK := by
  have inside := sublist.subset (List.mem_map_of_mem member)
  obtain ⟨kind, -, size, -⟩ := Tunnel.mem_parityPackets inside
  exact ⟨kind, inside, size.symm⟩

theorem Sourced.send (sourced : l.Sourced tx buffers) {turn : Env × Event} {s : Tunnel σ}
    (stepped : Tunnel.step tx l.sender turn = some s) :
    ∃ buffers', (l.after s).Sourced tx buffers' ∧ Extends buffers buffers' := by
  obtain ⟨packets, emits, moves⟩ := Tunnel.step_emits stepped
  have changed : ∀ {id : UInt16}, id = l.sender.groupId + 1 → id ≠ l.sender.groupId := by
    rintro id rfl same
    simp at same
  cases moves with
  | idle control same =>
      refine sourced.extend [] emits ?_ ?_ (.inl ⟨same.groupId, ?_⟩) ?_ ?_
      · exact fun i p new isData => absurd (.inl isData) (control p (List.mem_of_getElem? new))
      · exact fun p new fec => absurd (.inr fec) (control p new)
      · rw [List.append_nil]
        exact same.groupBuffer
      · rw [same.groupIndex, same.groupBuffer]
        exact sourced.index
      · rw [same.groupIndex]
        exact sourced.small
  | data packet room groupId groupIndex groupBuffer =>
      rename_i p
      have small := sourced.small
      have next : (l.sender.groupIndex + 1).toNat = l.sender.groupIndex.toNat + 1 := by
        rw [UInt8.toNat_add]
        exact Nat.mod_eq_of_lt (by change _ + 1 < 256; omega)
      refine sourced.extend [p.payload] emits ?_ ?_ (.inl ⟨groupId, groupBuffer⟩) ?_ ?_
      · intro i q new _
        obtain ⟨rfl, rfl⟩ : i = 0 ∧ p = q := by
          cases i with
          | zero => exact ⟨rfl, Option.some.inj new⟩
          | succ i => cases new
        exact ⟨rfl, (sourced.joins packet).2, rfl⟩
      · intro q new fec
        obtain rfl := List.mem_singleton.mp new
        rw [(sourced.joins packet).1] at fec
        cases fec
      · rw [groupIndex, groupBuffer, next, sourced.index, List.length_append]
        rfl
      · rw [UInt8.lt_iff_toNat_lt] at room
        rw [groupIndex]
        have bound := l.sender.fecParams.k.toNat_lt
        omega
  | fill packet full groupId groupIndex groupBuffer parity =>
      rename_i p parities
      refine sourced.extend [p.payload] emits ?_ ?_ (.inr ⟨changed groupId, groupBuffer⟩) ?_ ?_
      · intro i q new isData
        cases i with
        | zero =>
            obtain rfl : p = q := Option.some.inj new
            exact ⟨rfl, (sourced.joins packet).2, rfl⟩
        | succ i =>
            rw [(parity_of_sublist parity (List.mem_of_getElem? new)).1] at isData
            cases isData
      · intro q new fec
        rcases List.mem_cons.mp new with rfl | inside
        · rw [(sourced.joins packet).1] at fec
          cases fec
        · exact ⟨changed groupId, l.sender.fecParams, l.sender.groupId,
            (parity_of_sublist parity inside).2.2, (parity_of_sublist parity inside).2.1⟩
      · rw [groupIndex, groupBuffer]
        rfl
      · rw [groupIndex]
        decide
  | flush nonempty groupId groupIndex groupBuffer parity =>
      refine sourced.extend [] emits ?_ ?_ (.inr ⟨changed groupId, groupBuffer⟩) ?_ ?_
      · intro i q new isData
        rw [(parity_of_sublist parity (List.mem_of_getElem? new)).1] at isData
        cases isData
      · intro q new fec
        rw [List.append_nil]
        exact ⟨changed groupId, l.sender.fecParams, l.sender.groupId,
          (parity_of_sublist parity new).2.2, (parity_of_sublist parity new).2.1⟩
      · rw [groupIndex, groupBuffer]
        rfl
      · rw [groupIndex]
        decide

/-- A packet of the epoch with `k` sources, numbered among them if it is one. -/
structure Proper (l : History σ) (epoch : Nat) (k : UInt8) (place : Nat) (p : Sent) : Prop where
  sent : l.SentAs place p epoch
  kind : p.IsFec
  size : p.hdr.fecK = k
  numbered : p.hdr.packetType = .data → p.hdr.fecIndex < k

variable {g : RxGroup} {k : UInt8}

theorem Proper.parity (sourced : l.Sourced tx buffers) (proper : l.Proper epoch k place p)
    (fec : p.hdr.packetType = .fec) : ∃ params group, params.k = k ∧
      p.fecPacket ∈ parityPackets tx.fec params group (buffers epoch) ∧
      k.toNat ≤ p.hdr.fecIndex.toNat := by
  obtain ⟨-, params, group, size, member⟩ := sourced.parity place p epoch proper.sent fec
  refine ⟨params, group, size.trans proper.size, member, ?_⟩
  obtain ⟨i, packet⟩ := exists_parityPacket member
  have index : (parityPacket params group (buffers epoch) i).index.toNat = params.k.toNat + i :=
    parityPacket_index (encodable_of_mem member) i
  rw [← packet, size.trans proper.size] at index
  exact index ▸ Nat.le_add_right _ _

theorem Proper.shaped (sourced : l.Sourced tx buffers) (proper : l.Proper epoch k place p) :
    p.fecPacket.Shaped k := by
  refine ⟨proper.size, proper.numbered, fun inside => ?_⟩
  rcases proper.kind with data | fec
  · exact data
  · obtain ⟨-, -, -, -, behind⟩ := proper.parity sourced fec
    exact absurd (UInt8.lt_iff_toNat_lt.mp inside) (Nat.not_lt.mpr behind)

theorem Sourced.holdsOf (sourced : l.Sourced tx buffers)
    (symbols : ∀ i x, g.symbols.getD i none = some x → ∃ place p,
      l.Proper epoch g.k place p ∧ p.hdr.fecIndex.toNat = i ∧ p.payload = x) :
    g.HoldsOf tx.fec (buffers epoch) := by
  constructor
  · intro i x inside held
    obtain ⟨place, p, proper, rfl, rfl⟩ := symbols i x held
    rcases proper.kind with data | fec
    · exact sourced.data place p epoch proper.sent data
    · obtain ⟨-, -, -, -, behind⟩ := proper.parity sourced fec
      exact absurd inside (Nat.not_lt.mpr behind)
  · intro i x behind held
    obtain ⟨place, p, proper, rfl, rfl⟩ := symbols i x held
    rcases proper.kind with data | fec
    · exact absurd (UInt8.lt_iff_toNat_lt.mp (proper.numbered data)) (Nat.not_lt.mpr behind)
    · obtain ⟨params, group, size, member, -⟩ := proper.parity sourced fec
      exact ⟨params, group, size, p.fecPacket, member, rfl, rfl⟩

end History

/-! ## What the receiver holds -/

namespace Link

/-- Recovery handed over the source since the group was opened, padded to the length of its
    parity. -/
def Recovered (buffers : Nat → List Bytes) (l : Link σ τ) (id : UInt16) (g : RxGroup)
    (i : Nat) : Prop :=
  ∃ payload zeros, (buffers (l.opened id).epoch)[i]? = some payload ∧
    ⟨.recovered id i, payload ++ List.replicate zeros 0⟩ ∈
      l.receiver.tunWrites.drop (l.opened id).written ∧
    g.decoded ∧ ∃ j x, g.k.toNat ≤ j ∧ g.symbols.getD j none = some x ∧
      x.length = payload.length + zeros

/-- The group holds packets of the epoch that opened it, and knows of a source that it
    flagged either from its packet or because recovery handed it over since. -/
structure Explained (buffers : Nat → List Bytes) (l : Link σ τ) (id : UInt16) (g : RxGroup) :
    Prop where
  tracks : g.Tracks
  early : (l.opened id).written ≤ l.receiver.tunWrites.length
  symbols : ∀ i x, g.symbols.getD i none = some x → ∃ place p,
    l.Proper (l.opened id).epoch g.k place p ∧ p.hdr.fecIndex.toNat = i ∧ p.payload = x
  flagged : ∀ i,
    g.flag i → (∃ place ∈ l.arrived, ∃ p, l.SentAs place p (l.opened id).epoch ∧
    p.hdr.packetType = .data ∧ p.hdr.fecIndex.toNat = i) ∨ l.Recovered buffers id g i

/-- Every group that the receiver holds is explained by what the sender sent. -/
structure Traced (tx : Config σ) (buffers : Nat → List Bytes) (l : Link σ τ) : Prop where
  sourced : l.Sourced tx buffers
  own : l.receiver.session.id = l.sender.session.id
  groups : ∀ id g, l.receiver.rxGroups.lookup id = some g → l.Explained buffers id g

variable {tx : Config σ} {rx : Config τ} {l l' : Link σ τ}
  {buffers buffers' : Nat → List Bytes} {place epoch : Nat} {p : Sent} {id : UInt16}
  {g g' : RxGroup}

theorem Explained.mono (explained : l.Explained buffers id g)
    (sent : ∀ place p epoch, l.SentAs place p epoch → l'.SentAs place p epoch)
    (arrived : l.arrived ⊆ l'.arrived) (opened : l'.opened id = l.opened id)
    (writes : l.receiver.tunWrites <+: l'.receiver.tunWrites) (grown : Extends buffers buffers') :
    l'.Explained buffers' id g := by
  obtain ⟨more, writes⟩ := writes
  obtain ⟨tracks, early, symbols, flagged⟩ := explained
  constructor
  · exact tracks
  · rw [opened, ← writes, List.length_append]
    omega
  · intro i x held
    obtain ⟨place, p, proper, index, payload⟩ := symbols i x held
    rw [opened]
    exact ⟨place, p, ⟨sent _ _ _ proper.sent, proper.kind, proper.size, proper.numbered⟩,
      index, payload⟩
  · intro i flag
    rw [Recovered, opened]
    rcases flagged i flag with ⟨place, inside, p, isSent, data, index⟩ | ⟨payload, zeros,
      source, written, parity⟩
    · exact .inl ⟨place, arrived inside, p, sent _ _ _ isSent, data, index⟩
    · refine .inr ⟨payload, zeros, grown _ _ _ source, ?_, parity⟩
      rw [← writes, List.drop_append]
      exact List.mem_append_left _ written

theorem Traced.target (traced : l.Traced tx buffers) (now : Instant) {opened : UInt16 → Opening}
    (isOpened : opened = if (l.receiver.rxGroups.lookup p.hdr.fecGroup).isSome then l.opened
      else Function.update l.opened p.hdr.fecGroup ⟨epoch, l.receiver.tunWrites.length⟩)
    (unmixed : ∀ g, l.receiver.rxGroups.lookup p.hdr.fecGroup = some g →
      (l.opened p.hdr.fecGroup).epoch = epoch ∧ g.k = p.hdr.fecK) :
    (opened p.hdr.fecGroup).epoch = epoch ∧ (l.receiver.rxState.target now p.fecPacket).k =
    p.hdr.fecK ∧ { l with opened := opened }.Explained buffers p.hdr.fecGroup
    (l.receiver.rxState.target now p.fecPacket) := by
  subst isOpened
  have here : l.receiver.rxState.target now p.fecPacket =
      (l.receiver.rxGroups.lookup p.hdr.fecGroup).getD (.new p.hdr.fecK p.hdr.fecM now) := rfl
  rw [here]
  cases found : l.receiver.rxGroups.lookup p.hdr.fecGroup with
  | some g =>
      obtain ⟨same, size⟩ := unmixed g found
      simp only [Option.isSome_some, if_true, Option.getD_some]
      exact ⟨same, size, traced.groups _ g found⟩
  | none =>
      simp only [Option.isSome_none, Bool.false_eq_true, if_false, Function.update_self,
        Option.getD_none]
      refine ⟨trivial, rfl, RxGroup.tracks_new _ _ _, ?_, fun i x held => ?_, fun i flag => ?_⟩
      · change (Function.update l.opened _ _ _).written ≤ _
        rw [Function.update_self]
      · simp [RxGroup.new] at held
      · rw [RxGroup.flag_new] at flag
        cases flag

theorem Explained.arrive {now : Instant} {lost : List (Nat × Bytes)} {t : Tunnel τ}
    (sourced : l.Sourced tx buffers) (explained : l.Explained buffers p.hdr.fecGroup g)
    (proper : l.Proper (l.opened p.hdr.fecGroup).epoch g.k place p)
    (arrived : g.arrive tx.fec now p.fecPacket = some (g', lost)) {written : List TunWrite}
    (grown : l.receiver.tunWrites <+: written)
    (writes : t.tunWrites = written ++ lost.map fun e => ⟨.recovered p.hdr.fecGroup e.1, e.2⟩) :
    { l with receiver := t, arrived := place :: l.arrived }.Explained buffers
    p.hdr.fecGroup g' := by
  have shaped := proper.shaped sourced
  have arrives := RxGroup.arrive_spec explained.tracks shaped arrived
  obtain ⟨size, -, slots⟩ := RxGroup.arrive_keeps arrived
  have symbols : ∀ i x, g'.symbols.getD i none = some x → ∃ place p',
    l.Proper (l.opened p.hdr.fecGroup).epoch g'.k place p' ∧ p'.hdr.fecIndex.toNat = i ∧
    p'.payload = x := by
    intro i x held
    rw [slots] at held
    rw [size]
    split at held
    · exact explained.symbols i x held
    · rw [getD_set] at held
      split at held
      · rename_i here
        exact ⟨place, p, proper, here.1, Option.some.inj held⟩
      · exact explained.symbols i x held
  have holds := sourced.holdsOf symbols
  have handed := RxGroup.arrive_lost explained.tracks shaped arrived holds
  have enough : (l.opened p.hdr.fecGroup).written ≤ written.length :=
    explained.early.trans grown.length_le
  have drop : t.tunWrites.drop (l.opened p.hdr.fecGroup).written =
      written.drop (l.opened p.hdr.fecGroup).written ++
        lost.map fun e => ⟨.recovered p.hdr.fecGroup e.1, e.2⟩ := by
    rw [writes, List.drop_append_of_le_length enough]
  refine ⟨arrives.tracks, ?_, symbols, fun i flag => ?_⟩
  · change (l.opened p.hdr.fecGroup).written ≤ t.tunWrites.length
    rw [writes, List.length_append]
    omega
  · rcases (arrives.flags i).mp flag with before | ⟨data, rfl⟩ | recovered
    · obtain ⟨more, rfl⟩ := grown
      rcases explained.flagged i before with ⟨place', inside, q, sent, data, index⟩ |
        ⟨payload, zeros, source, old, done, j, x, behind, slot, long⟩
      · exact .inl ⟨place', List.mem_cons_of_mem _ inside, q, sent, data, index⟩
      · -- the parity stays, if another packet does not take its place, which is as long
        obtain ⟨y, slot'⟩ := Option.isSome_iff_exists.mp
          ((RxGroup.arrive_filled arrived).1 j (Option.isSome_iff_exists.mpr ⟨x, slot⟩))
        have same : y.length = x.length := (holds.parity_length (size ▸ behind) slot').trans
          ((sourced.holdsOf explained.symbols).parity_length behind slot).symm
        refine .inr ⟨payload, zeros, source, ?_, RxGroup.arrive_decoded arrived done, j, y,
          size ▸ behind, slot', same.trans long⟩
        change _ ∈ t.tunWrites.drop _
        rw [drop, List.drop_append]
        exact List.mem_append_left _ (List.mem_append_left _ old)
    · exact .inl ⟨place, List.mem_cons_self, p, proper.sent, data, rfl⟩
    · obtain ⟨e, member, rfl⟩ := List.mem_map.mp recovered
      obtain ⟨payload, zeros, source, bytes, long⟩ := handed e member
      obtain ⟨-, done, j, x, behind, slot⟩ :=
        RxGroup.arrive_lost_parity explained.tracks shaped arrived member
      have padded : x.length = payload.length + zeros := by
        rw [holds.parity_length behind slot, ← long, bytes, List.length_append,
          List.length_replicate]
      refine .inr ⟨payload, zeros, source, ?_, done, j, x, behind, slot, padded⟩
      change _ ∈ t.tunWrites.drop _
      rw [drop]
      exact List.mem_append_right _ (List.mem_map.mpr ⟨e, member, by rw [bytes]⟩)

/-! ## Steps -/

theorem arrive_cases {env : Env} {source : SocketAddr}
    (stepped : l.step tx rx (.arrive place env source) = some l') :
    ∃ p epoch t, l.SentAs place p epoch ∧ place ∉ l.arrived ∧ p.IsFec ∧
      Tunnel.step rx l.receiver (env, .datagram p.wire source) = some t ∧
      l' = l.afterArrival place epoch p t := by
  simp only [step] at stepped
  split at stepped
  · rename_i p epoch sent labelled
    split at stepped
    · cases stepped
    · rename_i admitted
      obtain ⟨t, turned, rfl⟩ := Option.map_eq_some_iff.mp stepped
      rw [not_or, not_not] at admitted
      exact ⟨p, epoch, t, ⟨sent, labelled⟩, admitted.1, admitted.2, turned, rfl⟩
  · cases stepped

theorem step_arrive {env : Env} {source : SocketAddr} {t : Tunnel τ}
    (sent : l.SentAs place p epoch) (fresh : place ∉ l.arrived) (kind : p.IsFec)
    (turned : Tunnel.step rx l.receiver (env, .datagram p.wire source) = some t) :
    l.step tx rx (.arrive place env source) = some (l.afterArrival place epoch p t) := by
  have admitted : ¬ (place ∈ l.arrived ∨
    ¬ (p.hdr.packetType = .data ∨ p.hdr.packetType = .fec)) :=
    not_or_intro fresh (not_not_intro kind)
  simp only [step, sent.sent, sent.epoch, if_neg admitted, turned, Option.map_some]

theorem Traced.accepts (traced : l.Traced tx buffers) (pair : rx.Receives tx)
    (sent : l.SentAs place p epoch) (kind : p.IsFec) {env : Env} {source : SocketAddr}
    {t : Tunnel τ}
    (turned : Tunnel.step rx l.receiver (env, .datagram p.wire source) = some t) :
    (l.receiver.exit ≠ none ∧ t = l.receiver) ∨ (l.receiver.exit = none ∧
      l.receiver.rxState.accept tx.fec env.now p.hdr p.payload = some t.rxState) := by
  cases exited : l.receiver.exit with
  | some exit =>
      rw [Tunnel.step_exited _ (by rw [exited]; rfl)] at turned
      exact .inl ⟨Option.some_ne_none exit, (Option.some.inj turned).symm⟩
  | none =>
      rw [Tunnel.step_running _ exited] at turned
      have reacts := (Tunnel.handleEvent_spec rx env l.receiver (.datagram p.wire source)).rx
      have opened :=
        Config.openDatagram_sent pair
        (traced.sourced.sealed p (List.mem_of_getElem? sent.sent)) kind
      rw [turned, Option.map_some, RxState.react, traced.own, opened, pair.fec] at reacts
      exact .inr ⟨rfl, reacts.symm⟩

theorem opened_afterArrival {t : Tunnel τ} (other : id ≠ p.hdr.fecGroup ∨
    (l.receiver.rxGroups.lookup p.hdr.fecGroup).isSome) :
    (l.afterArrival place epoch p t).opened id = l.opened id := by
  simp only [afterArrival]
  split
  · rfl
  · rename_i absent
    rcases other with apart | held
    · exact Function.update_of_ne apart ..
    · exact absurd held absent

theorem Traced.arrive (traced : l.Traced tx buffers) (pair : rx.Receives tx) {env : Env}
    {source : SocketAddr} (unmixed : l.Unmixed (.arrive place env source))
    (stepped : l.step tx rx (.arrive place env source) = some l') : l'.Traced tx buffers := by
  obtain ⟨p, epoch, t, sent, -, kind, turned, rfl⟩ := arrive_cases stepped
  have keeps : ∀ {id g}, l.receiver.rxGroups.lookup id = some g →
      id ≠ p.hdr.fecGroup ∨ (l.receiver.rxGroups.lookup p.hdr.fecGroup).isSome →
      l.receiver.tunWrites <+: t.tunWrites → (l.afterArrival place epoch p t).Explained
        buffers id g := by
    intro id g held other grown
    exact (traced.groups id g held).mono (fun _ _ _ isSent => isSent)
      (List.subset_cons_self _ _) (opened_afterArrival other) grown fun _ _ _ source => source
  refine ⟨traced.sourced, (Tunnel.step_id turned).trans traced.own, fun id g held => ?_⟩
  have held : t.rxGroups.lookup id = some g := held
  rcases traced.accepts pair sent kind turned with ⟨-, rfl⟩ | ⟨-, accepted⟩
  · refine keeps held ?_ (List.prefix_refl _)
    by_cases own : id = p.hdr.fecGroup
    · exact .inr (by rw [← own, held]; rfl)
    · exact .inl own
  · by_cases grouped : (p.hdr.fecPacket p.payload).Grouped
    · obtain ⟨g', lost, arrived, groups, writes⟩ := RxState.accept_cases grouped accepted
      have groups : t.rxGroups = l.receiver.rxGroups.insert p.hdr.fecGroup g' := groups
      have own : l.receiver.tunWrites <+: (l.receiver.rxState.writeOwn p.hdr p.payload).writes := by
        unfold RxState.writeOwn
        split
        · exact List.prefix_append ..
        · exact List.prefix_refl _
      have grown : l.receiver.tunWrites <+: t.tunWrites := own.trans ⟨_, writes.symm⟩
      by_cases here : id = p.hdr.fecGroup
      · subst here
        rw [groups, AList.lookup_insert] at held
        obtain rfl : g' = g := Option.some.inj held
        obtain ⟨numbered, unmixed⟩ := unmixed p epoch sent grouped.2
        obtain ⟨opened, isOpened⟩ : ∃ opened,
          opened = (l.afterArrival place epoch p t).opened := ⟨_, rfl⟩
        obtain ⟨same, size, explained⟩ := traced.target env.now isOpened unmixed
        have proper : l.Proper (opened p.hdr.fecGroup).epoch
          (l.receiver.rxState.target env.now p.fecPacket).k place p :=
          ⟨same.symm ▸ sent, kind, size.symm, size ▸ numbered⟩
        have arrives := Explained.arrive (l := { l with opened := opened }) traced.sourced explained
          proper arrived own writes
        rw [isOpened] at arrives
        exact arrives
      · rw [groups, AList.lookup_insert_ne here] at held
        exact keeps held (.inl here) grown
    · rw [RxState.accept_ungrouped grouped] at accepted
      have result := Option.some.inj accepted
      have groups : t.rxGroups = l.receiver.rxGroups := by
        refine (congrArg RxState.groups result).symm.trans ?_
        split <;> rfl
      have grown : l.receiver.tunWrites <+: t.tunWrites := by
        rw [show t.tunWrites = _ from (congrArg RxState.writes result).symm]
        split
        · exact List.prefix_append ..
        · exact List.prefix_refl _
      rw [groups] at held
      refine keeps held ?_ grown
      by_cases own : id = p.hdr.fecGroup
      · exact .inr (by rw [← own, held]; rfl)
      · exact .inl own

theorem Traced.hear (traced : l.Traced tx buffers) {turn : Env × Event} {t : Tunnel τ}
    (quiet : turn.2.quiet rx l.receiver.session.id)
    (turned : Tunnel.step rx l.receiver turn = some t) :
    { l with receiver := t }.Traced tx buffers := by
  have still : t.tunWrites = l.receiver.tunWrites ∧
      ∀ id g, t.rxGroups.lookup id = some g → l.receiver.rxGroups.lookup id = some g := by
    have kept : ∀ {r : RxState}, r = t.rxState → r = l.receiver.rxState → t.tunWrites =
      l.receiver.tunWrites ∧ ∀ id g,
      t.rxGroups.lookup id = some g → l.receiver.rxGroups.lookup id = some g := by
      rintro r rfl same
      have groups : t.rxGroups = l.receiver.rxGroups := congrArg RxState.groups same
      exact ⟨congrArg RxState.writes same, fun id g held => groups ▸ held⟩
    rcases Tunnel.step_react turned with same | reacts
    · exact kept rfl same
    · obtain ⟨env, e⟩ := turn
      cases e with
      | datagram bytes source =>
          simp only [Event.quiet] at quiet
          simp only [RxState.react] at reacts
          cases opened : rx.openDatagram l.receiver.session.id bytes with
          | error why =>
              rw [opened] at reacts
              exact kept rfl (Option.some.inj reacts).symm
          | ok packet =>
              obtain ⟨hdr, payload⟩ := packet
              rw [opened] at quiet reacts
              simp only [Bool.not_eq_true', decide_eq_false_iff_not] at quiet
              simp only at reacts
              rw [RxState.accept_ungrouped fun grouped => quiet grouped.1, if_neg fun data =>
                quiet (.inl data)] at reacts
              exact kept rfl (Option.some.inj reacts).symm
      | fecTick =>
          have evicted := Option.some.inj reacts
          refine ⟨(congrArg RxState.writes evicted).symm, fun id g held => ?_⟩
          have groups : (l.receiver.rxState.evict env.now).groups = t.rxGroups :=
            congrArg RxState.groups evicted
          rw [← groups, RxState.evict] at held
          exact (Table.lookup_retain_eq_some.mp held).1
      | _ => exact kept rfl (Option.some.inj reacts).symm
  refine ⟨traced.sourced, (Tunnel.step_id turned).trans traced.own, fun id g held => ?_⟩
  exact (traced.groups id g (still.2 id g held)).mono (fun _ _ _ sent => sent) (List.Subset.refl _)
    rfl (still.1 ▸ List.prefix_refl _) fun _ _ _ source => source

theorem Traced.step {e : LinkEvent} (traced : l.Traced tx buffers) (pair : rx.Receives tx)
    (unmixed : l.Unmixed e) (stepped : l.step tx rx e = some l') :
    ∃ buffers', l'.Traced tx buffers' := by
  cases e with
  | send turn =>
      obtain ⟨s, turned, rfl⟩ := Option.map_eq_some_iff.mp stepped
      obtain ⟨buffers', sourced, grown⟩ := traced.sourced.send turned
      obtain ⟨packets, emits, -⟩ := Tunnel.step_emits turned
      refine ⟨buffers', sourced, traced.own.trans (Tunnel.step_id turned).symm,
        fun id g held => ?_⟩
      exact (traced.groups id g held).mono (fun _ _ _ sent => sent.after emits.sent)
        (List.Subset.refl _) rfl (List.prefix_refl _) grown
  | arrive place env source => exact ⟨buffers, traced.arrive pair unmixed stepped⟩
  | hear turn =>
      simp only [Link.step] at stepped
      split at stepped
      · rename_i quiet
        obtain ⟨t, turned, rfl⟩ := Option.map_eq_some_iff.mp stepped
        exact ⟨buffers, traced.hear quiet turned⟩
      · cases stepped

/-- A data packet that is taken for a duplicate has been handed over by recovery since its
    group was opened. -/
theorem Traced.recovered_of_suppressed (traced : l.Traced tx buffers)
    (sent : l.SentAs place p epoch) (data : p.hdr.packetType = .data) (fresh : place ∉ l.arrived)
    (grouped : p.hdr.fecM ≠ 0) {env : Env} {source : SocketAddr}
    (unmixed : l.Unmixed (.arrive place env source))
    (unpadded : l.Unpadded (.arrive place env source))
    (suppressed : l.receiver.rxState.suppresses (p.hdr.fecPacket p.payload) = true) :
    (l.opened p.hdr.fecGroup).epoch = epoch ∧
      ⟨.recovered p.hdr.fecGroup p.hdr.fecIndex.toNat, p.payload⟩ ∈
        l.receiver.tunWrites.drop (l.opened p.hdr.fecGroup).written := by
  obtain ⟨g, held⟩ := RxState.exists_held_of_suppresses suppressed
  have held : l.receiver.rxGroups.lookup p.hdr.fecGroup = some g := held
  obtain ⟨numbered, same⟩ := unmixed p epoch sent grouped
  obtain ⟨epochs, size⟩ := same g held
  have target : l.receiver.rxState.target env.now (p.hdr.fecPacket p.payload) = g :=
    RxState.target_of_held env.now held
  rw [RxState.suppresses_eq_flag env.now (by rw [target, size]; exact numbered data),
    target] at suppressed
  refine ⟨epochs, ?_⟩
  rcases (traced.groups _ g held).flagged _ suppressed with
    ⟨place', earlier, q, isSent, isData, index⟩ |
    ⟨payload, zeros, source, written, done, j, x, behind, slot, long⟩
  · -- the same source twice would be the same packet twice
    rw [epochs] at isSent
    have index : q.hdr.fecIndex = p.hdr.fecIndex := UInt8.toNat_inj.mp index
    obtain rfl := traced.sourced.once place' place q p epoch isSent sent isData data index
    exact absurd earlier fresh
  · rw [epochs] at source
    have own := traced.sourced.data place p epoch sent data
    obtain rfl := Option.some.inj (own.symm.trans source)
    have short := unpadded p epoch sent data grouped g held done j x behind slot
    obtain rfl : zeros = 0 := by omega
    rwa [List.replicate_zero, List.append_nil] at written

theorem Traced.writtenOrRecovered {e : LinkEvent} (traced : l.Traced tx buffers)
    (pair : rx.Receives tx) (unmixed : l.Unmixed e) (unpadded : l.Unpadded e) :
    l.WrittenOrRecovered tx rx e := by
  cases e with
  | send turn => trivial
  | hear turn => trivial
  | arrive place env source =>
      intro p epoch l' sent data running stepped
      obtain ⟨p', epoch', t, sent', fresh, kind, turned, rfl⟩ := arrive_cases stepped
      obtain ⟨rfl, rfl⟩ := sent.unique sent'
      rcases traced.accepts pair sent kind turned with ⟨exited, -⟩ | ⟨-, accepted⟩
      · exact absurd running exited
      by_cases grouped : (p.hdr.fecPacket p.payload).Grouped
      · obtain ⟨g', lost, -, -, writes⟩ := RxState.accept_cases grouped accepted
        have writes : t.tunWrites = (l.receiver.rxState.writeOwn p.hdr p.payload).writes ++
            lost.map fun e => ⟨.recovered p.hdr.fecGroup e.1, e.2⟩ := writes
        cases suppressed : l.receiver.rxState.suppresses (p.hdr.fecPacket p.payload) with
        | true =>
            exact .inr (traced.recovered_of_suppressed sent data fresh grouped.2 unmixed
              unpadded suppressed)
        | false =>
            have own : (l.receiver.rxState.writeOwn p.hdr p.payload).writes =
                l.receiver.tunWrites ++ [⟨.data p.hdr, p.payload⟩] := by
              rw [RxState.writeOwn, if_pos ⟨data, suppressed⟩]
              rfl
            left
            change _ ∈ t.tunWrites.drop _
            rw [writes, own, List.append_assoc, List.drop_left]
            exact List.mem_cons_self
      · rw [RxState.accept_ungrouped grouped, if_pos data] at accepted
        have writes : t.tunWrites = l.receiver.tunWrites ++ [⟨.data p.hdr, p.payload⟩] :=
          (congrArg RxState.writes (Option.some.inj accepted)).symm
        left
        change _ ∈ t.tunWrites.drop _
        rw [writes, List.drop_left]
        exact List.mem_cons_self

/-! ## Runs -/

/-- The two ends before anything is sent. -/
def new (s : Tunnel σ) (t : Tunnel τ) : Link σ τ where
  sender := s
  receiver := t

theorem new_traced {s : Tunnel σ} {t : Tunnel τ} (silent : s.sent = [])
    (buffer : s.groupBuffer = []) (index : s.groupIndex = 0) (fresh : Tunnel.Fresh t)
    (own : t.session.id = s.session.id) :
    (new s t).Traced tx fun _ => [] := by
  have nothing : ∀ {place p epoch}, ¬ (new s t).SentAs place p epoch := fun sent => by
    have none : (none : Option Nat) = some _ := sent.epoch
    cases none
  refine ⟨⟨?_, ?_, buffer.symm, fun _ _ => rfl, ?_, ?_, ?_, ?_, ?_⟩, own,
    fun id g held => ?_⟩
  · intro p member
    rw [new, silent] at member
    exact absurd member List.not_mem_nil
  · rw [new, silent]
    rfl
  · rw [new, index, buffer]
    rfl
  · rw [new, index]
    decide
  · exact fun _ _ _ sent => absurd sent nothing
  · exact fun _ _ _ _ _ sent => absurd sent nothing
  · exact fun _ _ _ sent => absurd sent nothing
  · rw [new, fresh.rxGroups, AList.lookup_empty] at held
    cases held

/-- As long as no packet finds the group of another under its id, and none that was padded
    its own group decoded, every data packet that arrives is written, or recovery has handed
    over its payload. -/
theorem data_written_or_recovered (pair : rx.Receives tx) {s : Tunnel σ} {t : Tunnel τ}
    (silent : s.sent = []) (buffer : s.groupBuffer = []) (index : s.groupIndex = 0)
    (fresh : Tunnel.Fresh t) (own : t.session.id = s.session.id) {events : List LinkEvent}
    (honest : Runs.Along (step tx rx) (fun l e => l.Unmixed e ∧ l.Unpadded e) (new s t) events) :
    Runs.Along (step tx rx) (WrittenOrRecovered tx rx) (new s t) events := by
  intro left e right mid split reached
  have before : Runs.Along (step tx rx) (fun l e => l.Unmixed e ∧ l.Unpadded e)
    (new s t) left := by
    rw [split] at honest
    exact (Runs.along_append honest).1
  obtain ⟨buffers, traced⟩ := Runs.invariant_along (fun l => ∃ buffers, l.Traced tx buffers)
    (fun l e l' ok stepped ⟨buffers, traced⟩ => traced.step pair ok.1 stepped) before reached
    ⟨_, new_traced silent buffer index fresh own⟩
  obtain ⟨unmixed, unpadded⟩ := honest left e right mid split reached
  exact traced.writtenOrRecovered pair unmixed unpadded

/-! ## Fixed sessions -/

/-- `Unmixed`, evaluated. -/
def checkUnmixed (l : Link σ τ) : LinkEvent → Bool
  | .arrive place _ _ =>
      match l.sender.sent[place]?, l.epochs[place]? with
      | some p, some epoch => p.hdr.fecM = 0 ||
          ((p.hdr.packetType ≠ .data || p.hdr.fecIndex < p.hdr.fecK) &&
            match l.receiver.rxGroups.lookup p.hdr.fecGroup with
            | some g => (l.opened p.hdr.fecGroup).epoch = epoch && g.k = p.hdr.fecK
            | none => true)
      | _, _ => true
  | _ => true

theorem unmixed_of_check (l : Link σ τ) (e : LinkEvent) (checked : l.checkUnmixed e = true) :
    l.Unmixed e := by
  cases e with
  | send turn => trivial
  | hear turn => trivial
  | arrive place env source =>
      intro p epoch sent parity
      simp only [checkUnmixed, sent.sent, sent.epoch, decide_eq_false parity, Bool.false_or,
        Bool.and_eq_true, Bool.or_eq_true, decide_eq_true_eq] at checked
      refine ⟨fun data => ?_, fun g held => ?_⟩
      · rcases checked.1 with other | inside
        · exact absurd data other
        · exact inside
      · rw [held] at checked
        simpa using checked.2

/-- `Unpadded`, evaluated. -/
def checkUnpadded (l : Link σ τ) : LinkEvent → Bool
  | .arrive place _ _ =>
      match l.sender.sent[place]?, l.epochs[place]? with
      | some p, some _ => p.hdr.packetType ≠ .data || p.hdr.fecM = 0 ||
          match l.receiver.rxGroups.lookup p.hdr.fecGroup with
          | some g => !g.decoded || (g.symbols.drop g.k.toNat).all fun symbol =>
              symbol.all fun x => decide (x.length = p.payload.length)
          | none => true
      | _, _ => true
  | _ => true

theorem unpadded_of_check (l : Link σ τ) (e : LinkEvent) (checked : l.checkUnpadded e = true) :
    l.Unpadded e := by
  cases e with
  | send turn => trivial
  | hear turn => trivial
  | arrive place env source =>
      intro p epoch sent data parity g held done j x behind slot
      have other : decide (p.hdr.packetType ≠ .data) = false :=
        decide_eq_false (not_not_intro data)
      simp only [checkUnpadded, sent.sent, sent.epoch, other, decide_eq_false parity, held, done,
        Bool.false_or, Bool.not_true, List.all_eq_true] at checked
      have inside : some x ∈ g.symbols.drop g.k.toNat := by
        obtain ⟨i, rfl⟩ := Nat.exists_eq_add_of_le behind
        rw [List.mem_iff_getElem?]
        refine ⟨i, ?_⟩
        rw [List.getElem?_drop]
        rw [List.getD_eq_getElem?_getD] at slot
        cases found : g.symbols[g.k.toNat + i]? with
        | none =>
            rw [found] at slot
            cases slot
        | some symbol =>
            rw [found, Option.getD_some] at slot
            rw [slot]
      exact of_decide_eq_true (checked _ inside)

theorem honest_of_check (l : Link σ τ) (e : LinkEvent)
    (checked : (l.checkUnmixed e && l.checkUnpadded e) = true) : l.Unmixed e ∧ l.Unpadded e :=
  ((Bool.and_eq_true _ _).mp checked).imp (unmixed_of_check l e) (unpadded_of_check l e)

abbrev sampleSender : Config Unit := Tunnel.sampleConfig .initiatorToResponder .responderToInitiator
abbrev sampleReceiver : Config Unit :=
  Tunnel.sampleConfig .responderToInitiator .initiatorToResponder

/-- One source and two parity packets a group. -/
def sampleLink : Link Unit Unit :=
  new (Tunnel.sampleTunnel ⟨1, 2⟩) (Tunnel.sampleTunnel ⟨1, 2⟩)

def sampleSend : LinkEvent := .send (Tunnel.sampleEnv 0 0, .tun [1])

def sampleArrive (place : Nat) : LinkEvent :=
  .arrive place (Tunnel.sampleEnv 0 0) (Tunnel.sampleAddr 1)

/-- A data packet that arrives after its parity is not written again. -/
theorem late_data_recovered : Runs.Along (step sampleSender sampleReceiver)
    (WrittenOrRecovered sampleSender sampleReceiver) sampleLink
    [sampleSend, sampleArrive 1, sampleArrive 0] :=
  data_written_or_recovered (Tunnel.sampleConfig_receives _ _) rfl rfl rfl ⟨rfl, rfl, rfl, rfl⟩
    rfl (Runs.along_of_check honest_of_check (by decide +kernel))

/-- Between two groups. -/
structure Ready (s : Tunnel Unit) : Prop where
  running : s.exit = none
  params : s.fecParams = ⟨1, 2⟩
  buffer : s.groupBuffer = []
  index : s.groupIndex = 0

theorem wire_length_sampleSender (hdr : PacketHeader) (body : Bytes) :
    (sampleSender.wrapFrame (sampleSender.codec.encodeFrame hdr body)).length = HEADER_LEN +
    body.length := by
  have plain : sampleSender.wrapFrame (sampleSender.codec.encodeFrame hdr body) =
      FrameCodec.v1Fixed.encodeFrame hdr body := rfl
  rw [plain, FrameCodec.encodeFrame, FrameCodec.encodeHeader_v1Fixed, List.length_append,
    PacketHeader.toBytes_length]

theorem sendData_sampleSender (t : Tunnel Unit) (len : Nat) :
    (t.sendData sampleSender (Tunnel.sampleEnv 0 0) [1] len).1 = true := by
  have seals : ∀ (t : Tunnel Unit) hdr, t.sealPacket sampleSender hdr [1] =
      (some (sampleSender.wrapFrame
        (sampleSender.codec.encodeFrame hdr ([1] ++ List.replicate TAG_LEN 0))),
        (t.sealPacket sampleSender hdr [1]).2) := fun _ _ => rfl
  have fits : ∀ hdr, ¬ PATH_MTU < (sampleSender.wrapFrame (sampleSender.codec.encodeFrame hdr
      ([1] ++ List.replicate TAG_LEN 0))).length + OUTER_OVERHEAD := by
    intro hdr
    rw [wire_length_sampleSender]
    decide
  rw [Tunnel.sendData]
  obtain ⟨hdr, t⟩ := t.nextHeader .data
  dsimp only
  rw [seals]
  simp only [fits, if_false]
  rfl

theorem handleTunPacket_sampleSender (t : Tunnel Unit) :
    (t.handleTunPacket sampleSender (Tunnel.sampleEnv 0 0) [1]).1 = true := by
  have short : ¬ MAX_PAYLOAD < List.length [(1 : UInt8)] := by decide
  have budget : ¬ noCongestionControl.sendBudget t.congestion <
    max (List.length [(1 : UInt8)]) 1 :=
    (by decide : ¬ 2 ^ 64 - 1 < max (List.length [(1 : UInt8)]) 1)
  have gate : sampleSender.congestion = noCongestionControl := rfl
  have offered : noCongestionControl.maySend (Tunnel.sampleEnv 0 0).now t.congestion
      (max (List.length [(1 : UInt8)]) 1) = (true, t.congestion) := rfl
  simp only [Tunnel.handleTunPacket, gate, if_neg short, if_neg budget, offered, Bool.not_true,
    Bool.false_eq_true, if_false, sendData_sampleSender]

theorem ready_step {s : Tunnel Unit} (ready : Ready s) :
    ∃ s' p rest, Tunnel.step sampleSender s (Tunnel.sampleEnv 0 0, .tun [1]) = some s' ∧
      s'.sent = s.sent ++ p :: rest ∧ p.fecPacket = dataPacket ⟨1, 2⟩ s.groupId 0 [1] ∧
      s'.groupId = s.groupId + 1 ∧ Ready s' := by
  have sends := handleTunPacket_sampleSender (s.park none none)
  obtain ⟨packets, transmits, named⟩ :=
    Tunnel.handleTunPacket_transmits sampleSender (Tunnel.sampleEnv 0 0) (s.park none none) [1]
  obtain ⟨-, p, rest, rfl, packet⟩ := named sends
  obtain ⟨running, params, buffer, index⟩ := ready
  generalize result : (s.park none none).handleTunPacket sampleSender (Tunnel.sampleEnv 0 0)
    [1] = outcome
    at sends transmits
  obtain ⟨sent, s'⟩ := outcome
  obtain rfl : sent = true := sends
  have packet : p.fecPacket = dataPacket s.fecParams s.groupId s.groupIndex [1] := packet
  have kind : p.hdr.packetType = .data := congrArg FecPacket.packetType packet
  have turned : Tunnel.step sampleSender s (Tunnel.sampleEnv 0 0, .tun [1]) = some s' := by
    rw [Tunnel.step_running _ running, Tunnel.handleEvent, Tunnel.onTun, result]
  have params' : s'.fecParams = ⟨1, 2⟩ := transmits.fecParams.trans params
  have running' : s'.exit = none := transmits.rx.exit.trans running
  rw [params, index] at packet
  refine ⟨s', p, rest, turned, transmits.emits.sent, packet, ?_⟩
  cases transmits.moves with
  | idle control => exact absurd (.inl kind) (control p List.mem_cons_self)
  | data _ room =>
      have room : s.groupIndex + 1 < s.fecParams.k := room
      rw [index, params] at room
      exact absurd room (by decide)
  | fill _ _ groupId groupIndex groupBuffer =>
      exact ⟨groupId, running', params', groupBuffer, groupIndex⟩
  | flush _ _ _ _ parity =>
      have fec := (Tunnel.mem_parityPackets (parity.subset List.mem_cons_self)).1
      rw [packet] at fec
      cases fec

/-- What one send does to the link. -/
structure Advances (l l' : Link Unit Unit) : Prop where
  ready : Ready l'.sender
  count : l'.epochs.length = l'.sender.sent.length
  receiver : l'.receiver = l.receiver
  arrived : l'.arrived = l.arrived
  opened : l'.opened = l.opened
  keeps : ∀ place p epoch, l.SentAs place p epoch → l'.SentAs place p epoch

theorem ready_send {l : Link Unit Unit} (ready : Ready l.sender)
    (count : l.epochs.length = l.sender.sent.length) :
    ∃ l' p, l.step sampleSender sampleReceiver sampleSend = some l' ∧ l.Advances l' ∧
      l'.sender.groupId = l.sender.groupId + 1 ∧ l'.flushed = l.flushed + 1 ∧
      l'.SentAs l.sender.sent.length p l.flushed ∧ p.fecPacket = dataPacket
      ⟨1, 2⟩ l.sender.groupId 0 [1] := by
  obtain ⟨s', p, rest, turned, sent, packet, groupId, ready'⟩ := ready_step ready
  have changed : s'.groupId ≠ l.sender.groupId := by
    rw [groupId]
    simp
  refine ⟨{ l with toHistory := l.after s' }, p,
    by simp only [step, sampleSend, turned, Option.map_some], ?_, groupId, if_neg changed,
    ⟨?_, ?_⟩, packet⟩
  · refine ⟨ready', ?_, rfl, rfl, rfl, fun _ _ _ before => before.after sent⟩
    simp only [History.after, List.length_append, List.length_replicate, count, sent]
    omega
  · simp [History.after, sent]
  · simp [History.after, sent, count]

theorem ready_run (turns : Nat) {l : Link Unit Unit} (ready : Ready l.sender)
    (count : l.epochs.length = l.sender.sent.length) :
    ∃ l', Runs.run (step sampleSender sampleReceiver) l
    (List.replicate turns sampleSend) = some l' ∧ l.Advances l' ∧
    l'.sender.groupId = l.sender.groupId + UInt16.ofNat turns ∧
    l'.flushed = l.flushed + turns := by
  induction turns generalizing l with
  | zero =>
      exact ⟨l, rfl, ⟨ready, count, rfl, rfl, rfl, fun _ _ _ sent => sent⟩, by simp, rfl⟩
  | succ turns ih =>
      obtain ⟨mid, p, stepped, first, groupId, flushed, -, -⟩ := ready_send ready count
      obtain ⟨l', ran, rest, groupId', flushed'⟩ := ih first.ready first.count
      refine ⟨l', ?_,
        ⟨rest.ready, rest.count, rest.receiver.trans first.receiver,
        rest.arrived.trans first.arrived, rest.opened.trans first.opened, fun _ _ _ sent =>
        rest.keeps _ _ _ (first.keeps _ _ _ sent)⟩, ?_, ?_⟩
      · rw [List.replicate_succ]
        exact Runs.run_cons_eq_some.mpr ⟨mid, stepped, ran⟩
      · rw [groupId', groupId, UInt16.add_assoc, Nat.add_comm turns 1, UInt16.ofNat_add]
        rfl
      · rw [flushed', flushed, Nat.add_right_comm, Nat.add_assoc]

/-- The first packet under an id opens a group and flags its source; a second one with the
    same index brings nothing new. -/
theorem sample_twice :
    ∃ g g', (RxGroup.new 1 2 0).arrive .reedSolomon 0 (dataPacket ⟨1, 2⟩ 0 0 [1]) =
      some (g, []) ∧ g.flag 0 ∧ g.k = 1 ∧
    g.arrive .reedSolomon 0 (dataPacket ⟨1, 2⟩ 0 0 [1]) = some (g', []) := by
  have both : (((RxGroup.new 1 2 0).arrive .reedSolomon 0 (dataPacket ⟨1, 2⟩ 0 0 [1])).bind
    fun r =>
      (r.1.arrive .reedSolomon 0 (dataPacket ⟨1, 2⟩ 0 0 [1])).map fun r' =>
        (r.1.flag 0, r.1.k, r.2.length, r'.2.length)) = some (true, 1, 0, 0) := by
    decide +kernel
  obtain ⟨⟨g, lost⟩, first, second⟩ := Option.bind_eq_some_iff.mp both
  obtain ⟨⟨g', lost'⟩, second, same⟩ := Option.map_eq_some_iff.mp second
  simp only [Prod.mk.injEq, List.length_eq_zero_iff] at same
  obtain ⟨flag, size, rfl, rfl⟩ := same
  exact ⟨g, g', first, flag, size, second⟩

theorem sample_accepts {p q : Sent} (first : p.fecPacket = dataPacket ⟨1, 2⟩ 0 0 [1])
    (second : q.fecPacket = dataPacket ⟨1, 2⟩ 0 0 [1]) :
    ∃ r r', (RxState.mk ∅ []).accept .reedSolomon 0 p.hdr p.payload = some r ∧
      r.writes = [⟨.data p.hdr, p.payload⟩] ∧ r.accept .reedSolomon 0 q.hdr q.payload =
      some r' ∧ r'.writes = r.writes := by
  obtain ⟨g, g', opens, flag, size, again⟩ := sample_twice
  have first : p.hdr.fecPacket p.payload = dataPacket ⟨1, 2⟩ 0 0 [1] := first
  have second : q.hdr.fecPacket q.payload = dataPacket ⟨1, 2⟩ 0 0 [1] := second
  have data : p.hdr.packetType = .data := congrArg FecPacket.packetType first
  have grouped : (dataPacket ⟨1, 2⟩ 0 0 [1]).Grouped := by decide
  have unknown : (RxState.mk ∅ []).writeOwn p.hdr p.payload =
    ⟨∅, [⟨.data p.hdr, p.payload⟩]⟩ :=
    if_pos ⟨data, rfl⟩
  have held : (AList.insert (0 : UInt16) g (∅ : Table UInt16 RxGroup)).lookup 0 = some g :=
    AList.lookup_insert _
  have known : (RxState.mk (AList.insert 0 g ∅) [⟨.data p.hdr, p.payload⟩]).writeOwn q.hdr
    q.payload = ⟨AList.insert 0 g ∅, [⟨.data p.hdr, p.payload⟩]⟩ := by
    refine if_neg fun fresh => ?_
    have unflagged := fresh.2
    rw [second, RxState.suppresses_eq_flag 0, RxState.target] at unflagged
    · simp only [dataPacket, held, Option.getD_some] at unflagged
      rw [show (0 : UInt8).toNat = 0 from rfl, flag] at unflagged
      cases unflagged
    · simp only [RxState.target, dataPacket, held, Option.getD_some, size]
      decide
  refine ⟨⟨AList.insert 0 g ∅, [⟨.data p.hdr, p.payload⟩]⟩,
    ⟨AList.insert 0 g' (AList.insert 0 g ∅), _⟩, ?_, rfl, ?_, rfl⟩
  · rw [RxState.accept_grouped (first ▸ grouped), unknown, first, RxState.record, RxState.target]
    simp only [dataPacket] at opens ⊢
    rw [AList.lookup_empty, Option.getD_none, opens]
    rfl
  · rw [RxState.accept_grouped (second ▸ grouped), known, second, RxState.record, RxState.target]
    simp only [dataPacket] at again ⊢
    rw [held, Option.getD_some, again]
    simp

theorem sends_unmixed {l : Link Unit Unit} {events : List LinkEvent}
    (sends : ∀ e ∈ events, e = sampleSend) :
    Runs.Along (step sampleSender sampleReceiver) Unmixed l events := by
  intro left e right mid split _
  obtain rfl : e = sampleSend :=
    sends e (by rw [split]; exact List.mem_append_right left List.mem_cons_self)
  trivial

theorem sample_arrives {t : Tunnel Unit} {r : RxState} {p : Sent} (running : Tunnel.Running 7 t)
    (sealed : Sealed sampleSender 7 p) (kind : p.IsFec)
    (accepts : t.rxState.accept .reedSolomon 0 p.hdr p.payload = some r) :
    ∃ t', Tunnel.step sampleReceiver t
    (Tunnel.sampleEnv 0 0, .datagram p.wire (Tunnel.sampleAddr 1)) = some t' ∧ t'.rxState = r ∧
    Tunnel.Running 7 t' := by
  obtain ⟨reacts, stays⟩ :=
    Tunnel.step_sent (Tunnel.sampleConfig_receives _ _) running sealed kind (Tunnel.sampleEnv 0 0)
    (Tunnel.sampleAddr 1)
  obtain ⟨t', turned, rfl⟩ := Option.map_eq_some_iff.mp (reacts.trans accepts)
  exact ⟨t', turned, rfl, stays t' turned⟩

theorem sample_wraps : ∃ sends l p q place, (∀ e ∈ sends, e = sampleSend) ∧
    Runs.run (step sampleSender sampleReceiver) sampleLink sends = some l ∧
    l.receiver = Tunnel.sampleTunnel ⟨1, 2⟩ ∧ l.arrived = [] ∧
    (l.opened = fun _ => ⟨0, 0⟩) ∧ l.SentAs 0 p 0 ∧ p.fecPacket = dataPacket
    ⟨1, 2⟩ 0 0 [1] ∧
    l.SentAs place q 65536 ∧ q.fecPacket = dataPacket ⟨1, 2⟩ 0 0 [1] := by
  obtain ⟨l₁, p, stepped₁, first, groupId₁, flushed₁, sent, packet⟩ :=
    ready_send (l := sampleLink) ⟨rfl, rfl, rfl, rfl⟩ rfl
  obtain ⟨l₂, ran₂, many, groupId₂, flushed₂⟩ := ready_run 65535 first.ready first.count
  obtain ⟨l₃, q, stepped₃, last, -, -, sent', packet'⟩ := ready_send many.ready many.count
  have wrapped : l₂.sender.groupId = 0 := by
    rw [groupId₂, groupId₁]
    rfl
  have later : l₂.flushed = 65536 := by
    rw [flushed₂, flushed₁]
    rfl
  rw [wrapped] at packet'
  rw [later] at sent'
  have each : ∀ e ∈ List.replicate 65535 sampleSend, e = sampleSend :=
    fun e => List.eq_of_mem_replicate
  generalize List.replicate 65535 sampleSend = more at ran₂ each
  refine ⟨sampleSend :: more ++ [sampleSend], l₃, p, q, _, fun e member => ?_, ?_,
    last.receiver.trans (many.receiver.trans first.receiver),
    last.arrived.trans (many.arrived.trans first.arrived),
    last.opened.trans (many.opened.trans first.opened), last.keeps _ _ _ (many.keeps _ _ _ sent),
    packet, sent', packet'⟩
  · rcases List.mem_append.mp member with before | now
    · rcases List.mem_cons.mp before with same | inside
      · exact same
      · exact each e inside
    · exact List.mem_singleton.mp now
  · rw [Runs.run_append, Runs.run_cons_eq_some.mpr ⟨l₁, stepped₁, ran₂⟩]
    exact Runs.run_cons_eq_some.mpr ⟨l₃, stepped₃, rfl⟩

/-- A packet that comes 65536 groups later than the one whose group is held is dropped as
    a duplicate of it. -/
theorem wrapped_data_suppressed : ¬ ∀ events, Runs.Along (step sampleSender sampleReceiver)
    (WrittenOrRecovered sampleSender sampleReceiver) sampleLink events := by
  intro holds
  obtain ⟨sends, l, p, q, place, each, ran, receiver, arrived, opened, sent, packet, sent',
    packet'⟩ := sample_wraps
  obtain ⟨buffers, traced⟩ :=
    Runs.invariant_along (fun l => ∃ buffers, l.Traced sampleSender buffers)
    (fun l e l' ok stepped ⟨buffers, traced⟩ =>
    traced.step (Tunnel.sampleConfig_receives _ _) ok stepped) (sends_unmixed each) ran
    ⟨_, new_traced rfl rfl rfl ⟨rfl, rfl, rfl, rfl⟩ rfl⟩
  have running : Tunnel.Running 7 l.receiver := receiver ▸ ⟨rfl, rfl, rfl⟩
  have id : l.sender.session.id = 7 := traced.own.symm.trans running.own
  have sealed : ∀ {place x epoch}, l.SentAs place x epoch → Sealed sampleSender 7 x :=
    fun sent => id ▸ traced.sourced.sealed _ (List.mem_of_getElem? sent.sent)
  have kind : p.hdr.packetType = .data := congrArg FecPacket.packetType packet
  have kind' : q.hdr.packetType = .data := congrArg FecPacket.packetType packet'
  -- the two packets arrive, and nothing is written for the second
  obtain ⟨r, r', accepts, -, accepts', writes⟩ := sample_accepts packet packet'
  obtain ⟨t, turned, held, running'⟩ := sample_arrives running (sealed sent) (.inl kind)
    (show l.receiver.rxState.accept .reedSolomon 0 p.hdr p.payload =
      some r by rw [receiver]; exact accepts)
  obtain ⟨t', turned', held', -⟩ :=
    sample_arrives running' (sealed sent') (.inl kind') (by rw [held]; exact accepts')
  have stepped : l.step sampleSender sampleReceiver (sampleArrive 0) =
    some (l.afterArrival 0 0 p t) :=
    step_arrive sent (arrived ▸ List.not_mem_nil) (.inl kind) turned
  have fresh : place ∉ (l.afterArrival 0 0 p t).arrived := by
    simp only [afterArrival, arrived, List.mem_singleton]
    rintro rfl
    cases (sent.unique sent').2
  have stepped' : (l.afterArrival 0 0 p t).step sampleSender sampleReceiver (sampleArrive place) =
      some ((l.afterArrival 0 0 p t).afterArrival place 65536 q t') :=
    step_arrive sent' fresh (.inl kind') turned'
  have reached : Runs.run (step sampleSender sampleReceiver) sampleLink
    (sends ++ [sampleArrive 0]) = some (l.afterArrival 0 0 p t) := by
    rw [Runs.run_append, ran]
    exact Runs.run_cons_eq_some.mpr ⟨_, stepped, rfl⟩
  have claimed := holds (sends ++ [sampleArrive 0] ++ [sampleArrive place]) _ (sampleArrive place)
    [] _ rfl reached
  rcases claimed q 65536 _ sent' kind' running'.exit stepped' with written | ⟨epoch, -⟩
  · have same : t'.tunWrites = t.tunWrites :=
      (congrArg RxState.writes held').trans (writes.trans (congrArg RxState.writes held).symm)
    have written : _ ∈ t'.tunWrites.drop t.tunWrites.length := written
    rw [same, List.drop_length] at written
    cases written
  · have group : p.hdr.fecGroup = 0 := congrArg FecPacket.group packet
    have group' : q.hdr.fecGroup = 0 := congrArg FecPacket.group packet'
    have absent : l.receiver.rxGroups.lookup p.hdr.fecGroup = none := by
      rw [receiver]
      exact AList.lookup_empty _
    simp only [afterArrival, absent, group, group', Option.isSome_none, Bool.false_eq_true,
      if_false, Function.update_self] at epoch
    cases epoch

end Link

end Rustnies
