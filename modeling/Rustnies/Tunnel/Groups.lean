import Rustnies.Tunnel.Pairing
import Mathlib.Data.List.Fold
import Mathlib.Data.List.GetD
import Mathlib.Data.List.MinMax

/-! # The groups a sender makes

Data packets are numbered from zero inside their group, and the parity packets of a
full group come after them. The parity is computed over the sources padded to the
longest of them; the data packets carry them unpadded.
-/

namespace Rustnies

variable {σ : Type}

/-- The length that `flush_fec_group` pads the sources to. -/
def groupLen (buffer : List Bytes) : Nat := (buffer.map List.length).foldl max 0

section Padding

variable {buffer : List Bytes} {s : Bytes} {len : Nat}

theorem groupLen_eq_foldr (buffer : List Bytes) :
    groupLen buffer = (buffer.map List.length).foldr max ⊥ := List.foldl_eq_foldr ..

theorem length_le_groupLen (member : s ∈ buffer) : s.length ≤ groupLen buffer := by
  rw [groupLen_eq_foldr]
  exact List.le_max_of_le (List.mem_map_of_mem member) (Nat.le_refl _)

theorem groupLen_le (short : ∀ s ∈ buffer, s.length ≤ len) : groupLen buffer ≤ len := by
  rw [groupLen_eq_foldr]
  refine List.max_le_of_forall_le _ _ fun n member => ?_
  obtain ⟨s, inside, rfl⟩ := List.mem_map.mp member
  exact short s inside

theorem exists_length_eq_groupLen (nonempty : buffer ≠ []) :
    ∃ s ∈ buffer, s.length = groupLen buffer := by
  by_contra none_
  simp only [not_exists, not_and] at none_
  have shorter : ∀ s ∈ buffer, s.length < groupLen buffer := fun s member =>
    Nat.lt_of_le_of_ne (length_le_groupLen member) (none_ s member)
  obtain ⟨first, member⟩ := List.exists_mem_of_ne_nil buffer nonempty
  have positive := Nat.lt_of_le_of_lt (Nat.zero_le _) (shorter first member)
  have bounded : groupLen buffer ≤ groupLen buffer - 1 :=
    groupLen_le fun s member => Nat.le_sub_one_of_lt (shorter s member)
  omega

theorem padTo_length (short : s.length ≤ len) : (Tunnel.padTo len s).length = len := by
  simp only [Tunnel.padTo, List.length_append, List.length_replicate]
  omega

theorem padTo_self (exact_ : s.length = len) : Tunnel.padTo len s = s := by
  rw [Tunnel.padTo, exact_, Nat.sub_self, List.replicate_zero, List.append_nil]

/-- The sources of a group as they are encoded. -/
def padded (k : Nat) (buffer : List Bytes) (j : Fin k) : Bytes :=
  Tunnel.padTo (groupLen buffer) (buffer.getD j [])

theorem mem_of_getD {k : Nat} (full : buffer.length = k) (j : Fin k) :
    buffer.getD j [] ∈ buffer := by
  have inside : j.val < buffer.length := full ▸ j.isLt
  rw [List.getD_eq_getElem _ _ inside]
  exact List.getElem_mem inside

theorem padded_length {k : Nat} (full : buffer.length = k) (j : Fin k) :
    (padded k buffer j).length = groupLen buffer :=
  padTo_length (length_le_groupLen (mem_of_getD full j))

theorem map_padTo_eq {k : Nat} (full : buffer.length = k) :
    buffer.map (Tunnel.padTo (groupLen buffer)) = List.ofFn (padded k buffer) := by
  subst full
  apply List.ext_getElem
  · simp
  · intro i inside _
    have inside : i < buffer.length := by simpa using inside
    simp [padded, List.getElem?_eq_getElem inside]

end Padding

/-! ## Parity packets -/

/-- The group is one that `flush_fec_group` makes parity for. -/
structure Encodable (scheme : FecScheme) (params : FecParams) (buffer : List Bytes) : Prop where
  scheme : scheme = .reedSolomon
  positive : 1 ≤ params.k.toNat
  redundant : 0 < params.m.toNat
  small : params.k.toNat + params.m.toNat ≤ 255
  full : buffer.length = params.k.toNat

noncomputable def parityPacket (params : FecParams) (group : UInt16) (buffer : List Bytes)
    (i : Fin params.m.toNat) : FecPacket where
  packetType := .fec
  group := group
  index := UInt8.ofNat (params.k.toNat + i)
  k := params.k
  m := params.m
  payload := FecScheme.parity params.m.toNat (groupLen buffer) (padded params.k.toNat buffer) i

section Parity

variable {scheme : FecScheme} {params : FecParams} {group : UInt16} {buffer : List Bytes}
  {p : FecPacket}

theorem parityPackets_eq (encodable : Encodable scheme params buffer) :
    parityPackets scheme params group buffer = List.ofFn (parityPacket params group buffer) := by
  obtain ⟨rfl, positive, redundant, small, full⟩ := encodable
  have active : ¬ (params.m.toNat = 0 ∨ buffer.length < params.k.toNat) := by omega
  have encoded := FecScheme.encode_reedSolomon positive small
    (fun j => padded_length (k := params.k.toNat) full j)
  rw [← map_padTo_eq full] at encoded
  rw [groupLen] at encoded
  rw [parityPackets, if_neg active, encoded]
  apply List.ext_getElem
  · simp
  · intro i _ _
    simp [parityPacket, groupLen]

theorem encodable_of_mem (member : p ∈ parityPackets scheme params group buffer) :
    Encodable scheme params buffer := by
  unfold parityPackets at member
  split at member
  · exact absurd member List.not_mem_nil
  · rename_i active
    split at member
    · exact absurd member List.not_mem_nil
    · rename_i parities encoded
      obtain ⟨scheme, positive, small, count⟩ := FecScheme.encode_valid encoded
      rw [List.length_map] at count
      exact ⟨scheme, positive, by omega, small, count⟩

theorem parityPacket_index (encodable : Encodable scheme params buffer) (i : Fin params.m.toNat) :
    (parityPacket params group buffer i).index.toNat = params.k.toNat + i := by
  have small := encodable.small
  have inside := i.isLt
  rw [parityPacket, UInt8.toNat_ofNat', Nat.mod_eq_of_lt (by omega)]

theorem exists_parityPacket (member : p ∈ parityPackets scheme params group buffer) :
    ∃ i, p = parityPacket params group buffer i := by
  rw [parityPackets_eq (encodable_of_mem member)] at member
  obtain ⟨i, rfl⟩ := (List.mem_ofFn' ..).mp member
  exact ⟨i, rfl⟩

theorem length_of_mem_parity (member : p ∈ parityPackets scheme params group buffer) :
    p.payload.length = groupLen buffer := by
  obtain ⟨i, rfl⟩ := exists_parityPacket member
  exact FecScheme.parity_length i

end Parity

/-! ## The shape of what is sent -/

/-- A packet of a group of `k` sources: the sources first. -/
structure FecPacket.Shaped (k : UInt8) (p : FecPacket) : Prop where
  size : p.k = k
  sources : p.packetType = .data ↔ p.index < k

namespace Tunnel

variable {cfg : Config σ} {t t' : Tunnel σ} {turns : List (Env × Event)} {k : UInt8}

theorem shaped_of_mem_parity {params : FecParams} {group : UInt16} {buffer : List Bytes}
    {p : FecPacket} (member : p ∈ parityPackets cfg.fec params group buffer) :
    p.Shaped params.k := by
  have encodable := encodable_of_mem member
  obtain ⟨i, rfl⟩ := exists_parityPacket member
  refine ⟨rfl, ⟨nofun, fun inside => ?_⟩⟩
  rw [UInt8.lt_iff_toNat_lt, parityPacket_index encodable] at inside
  omega

/-- While a group has room, what is sent has the shape of its moment's group, and
    there is room again. -/
theorem GroupStep.shaped {packets : List Sent} (step : GroupStep cfg t packets t')
    (room : t.groupIndex < t.fecParams.k) :
    (∀ s ∈ packets, s.IsFec → s.fecPacket.Shaped t.fecParams.k) ∧
    t'.groupIndex < t.fecParams.k := by
  have empty : (0 : UInt8) < t.fecParams.k := by
    rw [UInt8.lt_iff_toNat_lt] at room ⊢
    exact Nat.lt_of_le_of_lt (Nat.zero_le _) room
  have source : ∀ {s : Sent}, s.fecPacket = dataPacket t.fecParams t.groupId t.groupIndex
    s.payload → s.fecPacket.Shaped t.fecParams.k := by
    intro s packet
    rw [packet]
    exact ⟨rfl, fun _ => room, fun _ => rfl⟩
  have parity : ∀ {parities : List Sent} {buffer : List Bytes},
      List.Sublist (parities.map Sent.fecPacket)
        (parityPackets cfg.fec t.fecParams t.groupId buffer) →
      ∀ s ∈ parities, s.fecPacket.Shaped t.fecParams.k := fun sublist s inside =>
    shaped_of_mem_parity (sublist.subset (List.mem_map_of_mem inside))
  cases step with
  | idle control same =>
      rw [same.groupIndex]
      exact ⟨fun s member fec => absurd fec (control s member), room⟩
  | data packet more groupId groupIndex groupBuffer =>
      rw [groupIndex]
      refine ⟨fun s member _ => ?_, more⟩
      obtain rfl := List.mem_singleton.mp member
      exact source packet
  | fill packet full groupId groupIndex groupBuffer sublist =>
      rw [groupIndex]
      refine ⟨fun s member _ => ?_, empty⟩
      rcases List.mem_cons.mp member with rfl | inside
      · exact source packet
      · exact parity sublist s inside
  | flush nonempty groupId groupIndex groupBuffer sublist =>
      rw [groupIndex]
      exact ⟨fun s member _ => parity sublist s member, empty⟩

theorem shaped_of_run (steady : Runs.Along (step cfg) (fun mid _ => mid.fecParams.k = k) t turns)
    (ran : run cfg t turns = some t') (room : t.groupIndex < k) (silent : t.sent = []) :
    ∀ s ∈ t'.sent, s.IsFec → s.fecPacket.Shaped k := by
  refine (Runs.invariant_along
    (fun t => t.groupIndex < k ∧ ∀ s ∈ t.sent, s.IsFec → s.fecPacket.Shaped k)
    (fun t turn t' same stepped inv => ?_) steady ran ⟨room, by simp [silent]⟩).2
  obtain ⟨packets, emits, moves⟩ := step_emits stepped
  obtain ⟨shaped, room⟩ := moves.shaped (same ▸ inv.1)
  refine ⟨same ▸ room, fun s member fec => ?_⟩
  rw [emits.sent] at member
  rcases List.mem_append.mp member with old | new
  · exact inv.2 s old fec
  · exact same ▸ shaped s new fec

/-! ## Filling one group -/

/-- Hand a packet to the tunnel; `none` says that it was not sent. -/
def handOver (cfg : Config σ) (t : Tunnel σ) (item : Env × Bytes) : Option (Tunnel σ) :=
  match t.handleTunPacket cfg item.1 item.2 with
  | (true, t) => some t
  | (false, _) => none

/-- The data packets of a group, numbered from `first`. -/
def dataPackets (params : FecParams) (group : UInt16) (first : Nat) (packets : List Bytes) :
    List FecPacket :=
  (packets.zipIdx first).map fun p => dataPacket params group (UInt8.ofNat p.2) p.1

theorem handOver_spec {item : Env × Bytes} (handed : t.handOver cfg item = some t') :
    t'.fecParams = t.fecParams ∧ ∃ s rest, Emits cfg t (s :: rest) t' ∧
      s.fecPacket = dataPacket t.fecParams t.groupId t.groupIndex item.2 ∧
      ((rest = [] ∧ t'.groupId = t.groupId ∧ t'.groupIndex = t.groupIndex + 1 ∧
          t'.groupBuffer = t.groupBuffer ++ [item.2] ∧ t.groupIndex + 1 < t.fecParams.k) ∨
        (t.fecParams.k ≤ t.groupIndex + 1 ∧ List.Sublist (rest.map Sent.fecPacket)
          (parityPackets cfg.fec t.fecParams t.groupId (t.groupBuffer ++ [item.2])))) := by
  obtain ⟨packets, transmits, named⟩ := handleTunPacket_transmits cfg item.1 t item.2
  have sent : (t.handleTunPacket cfg item.1 item.2) = (true, t') := by
    unfold handOver at handed
    split at handed
    · rename_i mid done
      cases handed
      exact done
    · cases handed
  rw [sent] at transmits named
  obtain ⟨-, s, rest, rfl, packet⟩ := named rfl
  have payload : s.payload = item.2 := congrArg FecPacket.payload packet
  have kind : s.fecPacket.packetType = .data := by rw [packet]; rfl
  refine ⟨transmits.fecParams, s, rest, transmits.emits, packet, ?_⟩
  cases transmits.moves with
  | idle control => exact absurd (.inl kind) (control s List.mem_cons_self)
  | data _ room groupId groupIndex groupBuffer =>
      exact .inl ⟨rfl, groupId, groupIndex, payload ▸ groupBuffer, room⟩
  | fill _ full groupId groupIndex groupBuffer parity =>
      exact .inr ⟨full, payload ▸ parity⟩
  | flush nonempty groupId groupIndex groupBuffer parity =>
      have fec := (mem_parityPackets (parity.subset List.mem_cons_self)).1
      rw [kind] at fec
      cases fec

/-- The packets that fill the rest of a group: the data, then parity of all of it. -/
theorem fills_group {items : List (Env × Bytes)} (nonempty : items ≠ [])
    (filling : t.groupIndex.toNat = t.groupBuffer.length)
    (size : t.groupBuffer.length + items.length = t.fecParams.k.toNat)
    (handed : Runs.run (handOver cfg) t items = some t') :
    ∃ sent parities, Emits cfg t sent t' ∧
      sent.map Sent.fecPacket =
        dataPackets t.fecParams t.groupId t.groupBuffer.length (items.map Prod.snd) ++ parities ∧
      List.Sublist parities
        (parityPackets cfg.fec t.fecParams t.groupId (t.groupBuffer ++ items.map Prod.snd)) := by
  induction items generalizing t with
  | nil => exact absurd rfl nonempty
  | cons item items ih =>
      obtain ⟨mid, first, others⟩ := Runs.run_cons_eq_some.mp handed
      obtain ⟨params, s, rest, emits, packet, step⟩ := handOver_spec first
      have index : UInt8.ofNat t.groupBuffer.length = t.groupIndex := by
        rw [← filling, UInt8.ofNat_toNat]
      rw [List.length_cons] at size
      have small := t.fecParams.k.toNat_lt
      have next : (t.groupIndex + 1).toNat = t.groupBuffer.length + 1 := by
        rw [UInt8.toNat_add, filling]
        exact Nat.mod_eq_of_lt (by change _ + 1 < _; omega)
      rcases step with ⟨rfl, groupId, groupIndex, groupBuffer, room⟩ | ⟨full, parity⟩
      · rw [UInt8.lt_iff_toNat_lt, next] at room
        have more : items ≠ [] := by
          rintro rfl
          simp only [List.length_nil] at size
          omega
        obtain ⟨sent, parities, emits', named, sublist⟩ := ih more
          (by rw [groupIndex, groupBuffer, next, List.length_append]; rfl)
          (by
            rw [groupBuffer, params, List.length_append]
            simp only [List.length_singleton]
            omega) others
        rw [params, groupId, groupBuffer] at named sublist
        refine ⟨[s] ++ sent, parities, emits.trans emits', ?_, ?_⟩
        · rw [List.map_append, named, List.map_singleton, packet, ← index]
          simp [dataPackets]
        · rw [List.map_cons]
          rwa [List.append_assoc, List.singleton_append] at sublist
      · rw [UInt8.le_iff_toNat_le, next] at full
        obtain rfl : items = [] := List.eq_nil_of_length_eq_zero (by omega)
        cases others
        refine ⟨s :: rest, rest.map Sent.fecPacket, emits, ?_, parity⟩
        rw [List.map_cons, packet, ← index]
        rfl

end Tunnel

end Rustnies
