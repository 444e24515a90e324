import Rustnies.Lib.Bitmap
import Rustnies.Protocol.Session
import Mathlib.Data.List.Induction
import Mathlib.Data.List.Nodup

/-! # What the windows of a session mean

The replay window and the selective acknowledgement are words that stand for sets
of sequence numbers. Each is compared here with the set it stands for, after any
sequence of calls.
-/

namespace Rustnies

open Bitmap

/-! ## Shifts -/

/-- `bits <<= shift`, where a shift by the whole width clears the word. -/
theorem slide64_toBitVec (bits : UInt64) (shift : UInt32) :
    (if WINDOW ≤ shift then 0 else bits <<< shift.toUInt64).toBitVec = bits.toBitVec <<<
    shift.toNat := by
  split
  · rename_i wide
    have wide : 64 ≤ shift.toNat := UInt32.le_iff_toNat_le.mp wide
    rw [BitVec.shiftLeft_eq_zero wide]
    rfl
  · rename_i narrow
    have narrow : shift.toNat < 64 :=
      Nat.lt_of_not_le fun wide => narrow (UInt32.le_iff_toNat_le.mpr wide)
    rw [UInt64.toBitVec_shiftLeft, BitVec.shiftLeft_eq']
    congr 1
    simp
    omega

theorem one_shl64_toBitVec {back : UInt32} (narrow : back.toNat < 64) :
    ((1 : UInt64) <<< back.toUInt64).toBitVec = BitVec.twoPow 64 back.toNat := by
  rw [UInt64.toBitVec_shiftLeft, BitVec.shiftLeft_eq', BitVec.twoPow_eq]
  congr 1
  simp
  omega

/-! ## The replay window -/

namespace ReplayWindow

/-- One call, with the numbers accepted so far. -/
def note (state : List UInt32 × ReplayWindow) (seq : UInt32) : List UInt32 × ReplayWindow :=
  match state.2.checkAndRecord seq with
  | (true, w) => (state.1 ++ [seq], w)
  | (false, w) => (state.1, w)

/-- The numbers that a fresh window accepts out of a sequence of calls, and the window
    after them. -/
def run (calls : List UInt32) : List UInt32 × ReplayWindow := calls.foldl note ([], new)

/-- What a call should accept, going by the numbers accepted before it. -/
def Acceptable (accepted : List UInt32) (seq : UInt32) : Prop :=
  seq ≠ 0 ∧ seq ∉ accepted ∧ ∀ n ∈ accepted, n.toNat < seq.toNat + 64

/-- The window stands for the numbers accepted so far. -/
structure Stands (accepted : List UInt32) (w : ReplayWindow) : Prop where
  below : ∀ n ∈ accepted, n.toNat ≤ w.highest.toNat
  reached : w.highest = 0 ∨ w.highest ∈ accepted
  bits : Covers w.bits.toBitVec fun i => ∃ n ∈ accepted, n.toNat + i = w.highest.toNat
  nonzero : 0 ∉ accepted
  nodup : accepted.Nodup

theorem Stands.new : Stands [] new where
  below _ member := absurd member List.not_mem_nil
  reached := .inl rfl
  bits := .zero fun _ _ ⟨_, member, _⟩ => absurd member List.not_mem_nil
  nonzero := List.not_mem_nil
  nodup := List.nodup_nil

variable {accepted : List UInt32} {w : ReplayWindow} {seq : UInt32}

theorem Stands.advance (stands : Stands accepted w) (above : w.highest < seq) :
    Acceptable accepted seq ∧ Stands (accepted ++ [seq])
      ⟨seq, (if WINDOW ≤ seq - w.highest then 0 else w.bits <<< (seq - w.highest).toUInt64) |||
        1⟩ := by
  have above : w.highest.toNat < seq.toNat := UInt32.lt_iff_toNat_lt.mp above
  have new : seq ∉ accepted := fun old => absurd (stands.below seq old) (Nat.not_le.mpr above)
  have positive : seq ≠ 0 := by
    rintro rfl
    exact absurd above (Nat.not_lt_zero _)
  have shift : (seq - w.highest).toNat = seq.toNat - w.highest.toNat :=
    UInt32.toNat_sub_of_le _ _ (UInt32.le_iff_toNat_le.mpr (Nat.le_of_lt above))
  refine ⟨⟨positive, new, fun n member => ?_⟩, ⟨?_, ?_, ?_, ?_, ?_⟩⟩
  · have := stands.below n member
    omega
  · intro n member
    rcases List.mem_append.mp member with old | last
    · have := stands.below n old
      simp only
      omega
    · rw [List.mem_singleton.mp last]
  · exact .inr (List.mem_append_right _ List.mem_cons_self)
  · have slid := (stands.bits.slide (seq - w.highest).toNat).mark 0
    rw [← slide64_toBitVec] at slid
    refine slid.congr fun i _ => ?_
    rw [shift]
    constructor
    · rintro (rfl | ⟨far, n, member, same⟩)
      · exact ⟨seq, List.mem_append_right _ List.mem_cons_self, rfl⟩
      · refine ⟨n, List.mem_append_left _ member, ?_⟩
        simp only
        omega
    · rintro ⟨n, member, same⟩
      rcases List.mem_append.mp member with old | last
      · have := stands.below n old
        simp only at same
        exact .inr ⟨by omega, n, old, by omega⟩
      · rw [List.mem_singleton.mp last] at same
        exact .inl (by simp only at same; omega)
  · intro zero
    rcases List.mem_append.mp zero with old | last
    · exact stands.nonzero old
    · exact positive (List.mem_singleton.mp last).symm
  · exact stands.nodup.append (List.nodup_singleton seq) (List.disjoint_singleton.mpr new)

theorem Stands.fill (stands : Stands accepted w) (positive : seq ≠ 0) (new : seq ∉ accepted)
    (inside : seq.toNat ≤ w.highest.toNat) (near : (w.highest - seq).toNat < 64) :
    Stands (accepted ++ [seq])
    { w with bits := w.bits ||| (1 <<< (w.highest - seq).toUInt64) } := by
  have back : (w.highest - seq).toNat = w.highest.toNat - seq.toNat :=
    UInt32.toNat_sub_of_le _ _ (UInt32.le_iff_toNat_le.mpr inside)
  refine ⟨?_, ?_, ?_, ?_, stands.nodup.append (List.nodup_singleton seq)
    (List.disjoint_singleton.mpr new)⟩
  · intro n member
    rcases List.mem_append.mp member with old | last
    · exact stands.below n old
    · rw [List.mem_singleton.mp last]
      exact inside
  · rcases stands.reached with zero | old
    · exact .inl zero
    · exact .inr (List.mem_append_left _ old)
  · have marked := stands.bits.mark (w.highest - seq).toNat
    rw [← one_shl64_toBitVec near] at marked
    refine marked.congr fun i _ => ?_
    rw [back]
    constructor
    · rintro (rfl | ⟨n, member, same⟩)
      · exact ⟨seq, List.mem_append_right _ List.mem_cons_self, by simp only; omega⟩
      · exact ⟨n, List.mem_append_left _ member, same⟩
    · rintro ⟨n, member, same⟩
      rcases List.mem_append.mp member with old | last
      · exact .inr ⟨n, old, same⟩
      · rw [List.mem_singleton.mp last] at same
        exact .inl (by simp only at same; omega)
  · intro zero
    rcases List.mem_append.mp zero with old | last
    · exact stands.nonzero old
    · exact positive (List.mem_singleton.mp last).symm

theorem Stands.call (stands : Stands accepted w) (seq : UInt32) :
    ((w.checkAndRecord seq).1 = true ↔ Acceptable accepted seq) ∧
      Stands (note (accepted, w) seq).1 (note (accepted, w) seq).2 := by
  have refused : ¬ Acceptable accepted seq → w.checkAndRecord seq = (false, w) →
      ((w.checkAndRecord seq).1 = true ↔ Acceptable accepted seq) ∧
        Stands (note (accepted, w) seq).1 (note (accepted, w) seq).2 := by
    intro not answer
    simp only [note, answer, not, Bool.false_eq_true, true_and]
    exact stands
  have taken : ∀ w', Acceptable accepted seq → w.checkAndRecord seq = (true, w') →
      Stands (accepted ++ [seq]) w' → ((w.checkAndRecord seq).1 = true ↔
        Acceptable accepted seq) ∧
      Stands (note (accepted, w) seq).1 (note (accepted, w) seq).2 := by
    intro w' yes answer after
    simp only [note, answer, yes, true_and]
    exact after
  by_cases zero : seq = 0
  · exact refused (fun ok => ok.1 zero) (by rw [checkAndRecord, if_pos zero])
  by_cases above : w.highest < seq
  · obtain ⟨ok, after⟩ := stands.advance above
    exact taken _ ok (by rw [checkAndRecord, if_neg zero, if_pos above]) after
  have inside : seq.toNat ≤ w.highest.toNat :=
    Nat.le_of_not_lt fun above' => above (UInt32.lt_iff_toNat_lt.mpr above')
  have back : (w.highest - seq).toNat = w.highest.toNat - seq.toNat :=
    UInt32.toNat_sub_of_le _ _ (UInt32.le_iff_toNat_le.mpr inside)
  by_cases far : WINDOW ≤ w.highest - seq
  · have far' : 64 ≤ (w.highest - seq).toNat := UInt32.le_iff_toNat_le.mp far
    refine refused (fun ok => ?_)
      (by rw [checkAndRecord, if_neg zero, if_neg above]; simp only [if_pos far])
    rcases stands.reached with none | top
    · rw [none] at inside
      exact zero (UInt32.toNat_inj.mp (Nat.le_zero.mp inside))
    · have := ok.2.2 w.highest top
      omega
  have near : (w.highest - seq).toNat < 64 :=
    Nat.lt_of_not_le fun wide => far (UInt32.le_iff_toNat_le.mpr wide)
  have marked : w.bits &&& (1 <<< (w.highest - seq).toUInt64) ≠ 0 ↔ seq ∈ accepted := by
    rw [ne_eq, ← UInt64.toBitVec_inj, UInt64.toBitVec_and, one_shl64_toBitVec near]
    refine (and_twoPow_ne_zero _ near).trans ((stands.bits _ near).trans ?_)
    constructor
    · rintro ⟨n, member, same⟩
      have : n = seq := UInt32.toNat_inj.mp (by omega)
      exact this ▸ member
    · intro member
      exact ⟨seq, member, by omega⟩
  by_cases seen : w.bits &&& (1 <<< (w.highest - seq).toUInt64) ≠ 0
  · refine refused (fun ok => ok.2.1 (marked.mp seen)) ?_
    rw [checkAndRecord, if_neg zero, if_neg above]
    simp only [if_neg far, if_pos seen]
  · have new : seq ∉ accepted := fun old => seen (marked.mpr old)
    refine taken _ ⟨zero, new, fun n member => ?_⟩ ?_ (stands.fill zero new inside near)
    · have := stands.below n member
      omega
    · rw [checkAndRecord, if_neg zero, if_neg above]
      simp only [if_neg far, if_neg seen]

theorem stands_run (calls : List UInt32) : Stands (run calls).1 (run calls).2 := by
  induction calls using List.reverseRecOn with
  | nil => exact .new
  | append_singleton calls seq ih =>
      rw [run, List.foldl_append]
      exact (ih.call seq).2

/-- After any calls, a number is accepted exactly when it is not zero, was not accepted
    before and is less than 64 below the highest accepted; no number is accepted twice. -/
theorem checkAndRecord_run (calls : List UInt32) :
    (∀ seq, ((run calls).2.checkAndRecord seq).1 = true ↔
      seq ≠ 0 ∧ seq ∉ (run calls).1 ∧ ∀ n ∈ (run calls).1, n.toNat < seq.toNat + 64) ∧
      (run calls).1.Nodup :=
  ⟨fun seq => ((stands_run calls).call seq).1, (stands_run calls).nodup⟩

end ReplayWindow

/-! ## Selective acknowledgements -/

theorem slide32_toBitVec (bitmap advance : UInt32) :
    (if 32 ≤ advance then 0 else bitmap <<< advance).toBitVec = bitmap.toBitVec <<<
    advance.toNat := by
  split
  · rename_i wide
    have wide : 32 ≤ advance.toNat := UInt32.le_iff_toNat_le.mp wide
    rw [BitVec.shiftLeft_eq_zero wide]
    rfl
  · rename_i narrow
    have narrow : advance.toNat < 32 :=
      Nat.lt_of_not_le fun wide => narrow (UInt32.le_iff_toNat_le.mpr wide)
    rw [UInt32.toBitVec_shiftLeft, BitVec.shiftLeft_eq']
    congr 1
    simp
    omega

theorem one_shl32_toBitVec {place : UInt32} (narrow : place.toNat < 32) :
    ((1 : UInt32) <<< place).toBitVec = BitVec.twoPow 32 place.toNat := by
  rw [UInt32.toBitVec_shiftLeft, BitVec.shiftLeft_eq', BitVec.twoPow_eq]
  congr 1
  simp
  omega

theorem bit_test32 (bitmap : UInt32) {place : UInt32} (narrow : place.toNat < 32) :
    ((bitmap >>> place) &&& 1 == 1) = true ↔ bitmap.toBitVec.getLsbD place.toNat = true := by
  have shift : place.toBitVec.toNat % 32 = place.toNat := by
    simp
    omega
  have shifted : (bitmap >>> place).toBitVec.getLsbD 0 = bitmap.toBitVec.getLsbD place.toNat := by
    rw [UInt32.toBitVec_shiftRight, BitVec.ushiftRight_eq', BitVec.getLsbD_ushiftRight]
    congr 1
  rw [beq_iff_eq, ← UInt32.toBitVec_inj, UInt32.toBitVec_and, ← shifted]
  have one : (1 : UInt32).toBitVec = 1#32 := rfl
  rw [one, BitVec.and_one_eq_setWidth_ofBool_getLsbD]
  cases (bitmap >>> place).toBitVec.getLsbD 0 with
  | true => simp
  | false => simp

namespace AckTracker

/-- How far a number lies above the base of the window, going round. -/
def rank (base seq : UInt32) : Nat := (seq - base).toNat

theorem record_record (a : AckTracker) (seq : UInt32) :
    (a.record seq).record seq = a.record seq := by
  have anchored : ∀ {b : AckTracker}, b.anchor = seq → b.record seq = b := by
    rintro b rfl
    simp [record]
  by_cases zero : seq = 0
  · simp [record, zero]
  by_cases unset : a.anchor = 0
  · exact anchored (by simp [record, zero, unset])
  by_cases still : seq - a.anchor = 0
  · exact congrArg (record · seq) (by simp [record, zero, unset, still])
  by_cases ahead : seq - a.anchor ≤ 0x7FFFFFFF
  · exact anchored (by simp [record, zero, unset, still, ahead])
  by_cases near : 1 ≤ a.anchor - seq ∧ a.anchor - seq ≤ 32
  · simp [record, zero, unset, still, ahead, near, UInt32.or_assoc]
  · exact congrArg (record · seq) (by simp [record, zero, unset, still, ahead, near])

/-- The tracker stands for the numbers received so far: the anchor is the newest, and
    the bitmap covers the 32 numbers below it. -/
structure Stands (base : UInt32) (received : List UInt32) (a : AckTracker) : Prop where
  member : a.anchor ∈ received
  newest : ∀ seq ∈ received, rank base seq ≤ rank base a.anchor
  bitmap : Covers a.bitmap.toBitVec fun i => ∃ seq ∈ received, (a.anchor - seq).toNat = i + 1

variable {base : UInt32} {received : List UInt32} {a : AckTracker} {seq : UInt32}

theorem rank_sub {first second : UInt32} (le : rank base first ≤ rank base second) :
    (second - first).toNat = rank base second - rank base first := by
  simp only [rank, UInt32.toNat_sub] at le ⊢
  have := base.toNat_lt
  have := first.toNat_lt
  have := second.toNat_lt
  omega

theorem rank_injective {first second : UInt32} (same : rank base first = rank base second) :
    first = second := by
  simp only [rank, UInt32.toNat_sub] at same
  have := base.toNat_lt
  have := first.toNat_lt
  have := second.toNat_lt
  exact UInt32.toNat_inj.mp (by omega)

theorem Stands.advance (stands : Stands base received a)
    (newer : rank base a.anchor < rank base seq) :
    Stands base (received ++ [seq])
      ⟨seq, if seq - a.anchor ≤ 32
        then (if 32 ≤ seq - a.anchor then 0 else a.bitmap <<< (seq - a.anchor)) |||
        (1 <<< (seq - a.anchor - 1))
        else if 32 ≤ seq - a.anchor then 0 else a.bitmap <<< (seq - a.anchor)⟩ := by
  have moved := rank_sub (Nat.le_of_lt newer)
  have distance : ∀ s ∈ received, (seq - s).toNat = (seq - a.anchor).toNat +
    (a.anchor - s).toNat := by
    intro s old
    have below := stands.newest s old
    have under : rank base s ≤ rank base seq := by omega
    rw [moved, rank_sub below, rank_sub under]
    omega
  -- the old anchor, or what the old bitmap covered
  have places : ∀ i, (∃ s ∈ received ++ [seq], (seq - s).toNat = i + 1) ↔
      (seq - a.anchor).toNat = i + 1 ∨
        ((seq - a.anchor).toNat ≤ i ∧ ∃ s ∈ received, (a.anchor - s).toNat = i -
          (seq - a.anchor).toNat + 1) := by
    intro i
    constructor
    · rintro ⟨s, member, place⟩
      rcases List.mem_append.mp member with old | last
      · rw [distance s old] at place
        by_cases anchor : (a.anchor - s).toNat = 0
        · exact .inl (by omega)
        · exact .inr ⟨by omega, s, old, by omega⟩
      · rw [List.mem_singleton.mp last, UInt32.sub_self] at place
        cases place
    · rintro (place | ⟨far, s, old, place⟩)
      · exact ⟨a.anchor, List.mem_append_left _ stands.member, place⟩
      · refine ⟨s, List.mem_append_left _ old, ?_⟩
        rw [distance s old]
        omega
  refine ⟨List.mem_append_right _ List.mem_cons_self, ?_, ?_⟩
  · intro s member
    rcases List.mem_append.mp member with old | last
    · have := stands.newest s old
      simp only
      omega
    · rw [List.mem_singleton.mp last]
  · have slid := stands.bitmap.slide (seq - a.anchor).toNat
    by_cases near : seq - a.anchor ≤ 32
    · have near' : (seq - a.anchor).toNat ≤ 32 := UInt32.le_iff_toNat_le.mp near
      have place : (seq - a.anchor - 1).toNat = (seq - a.anchor).toNat - 1 :=
        UInt32.toNat_sub_of_le _ _ (UInt32.le_iff_toNat_le.mpr (by rw [moved]; simp; omega))
      have marked := slid.mark (seq - a.anchor - 1).toNat
      rw [← slide32_toBitVec, ← one_shl32_toBitVec (by omega)] at marked
      simp only [if_pos near]
      refine marked.congr fun i _ => ?_
      rw [places, place]
      refine or_congr ?_ Iff.rfl
      omega
    · have far : 32 < (seq - a.anchor).toNat :=
        Nat.lt_of_not_le fun le => near (UInt32.le_iff_toNat_le.mpr le)
      rw [← slide32_toBitVec] at slid
      simp only [if_neg near]
      refine slid.congr fun i inside => ?_
      rw [places]
      have : (seq - a.anchor).toNat ≠ i + 1 := by omega
      simp only [this, false_or]

theorem Stands.mark (stands : Stands base received a) (older : rank base seq ≤ rank base a.anchor)
    {bitmap : UInt32} (covers : Covers bitmap.toBitVec fun i => i + 1 = (a.anchor - seq).toNat ∨
      ∃ s ∈ received, (a.anchor - s).toNat = i + 1) :
    Stands base (received ++ [seq]) { a with bitmap := bitmap } := by
  refine ⟨List.mem_append_left _ stands.member, fun s member => ?_, covers.congr fun i _ => ?_⟩
  · rcases List.mem_append.mp member with old | last
    · exact stands.newest s old
    · rw [List.mem_singleton.mp last]
      exact older
  · constructor
    · rintro (here | ⟨s, old, place⟩)
      · exact ⟨seq, List.mem_append_right _ List.mem_cons_self, here.symm⟩
      · exact ⟨s, List.mem_append_left _ old, place⟩
    · rintro ⟨s, member, place⟩
      rcases List.mem_append.mp member with old | last
      · exact .inr ⟨s, old, place⟩
      · rw [List.mem_singleton.mp last] at place
        exact .inl place.symm

theorem Stands.record (stands : Stands base received a) (nonzero : seq ≠ 0)
    (anchored : a.anchor ≠ 0) (window : rank base seq < 2 ^ 31)
    (window' : rank base a.anchor < 2 ^ 31) :
    Stands base (received ++ [seq]) (a.record seq) := by
  rw [AckTracker.record, if_neg nonzero, if_neg anchored]
  by_cases newer : rank base a.anchor < rank base seq
  · have moved := rank_sub (Nat.le_of_lt newer)
    have some_ : seq - a.anchor ≠ 0 := fun zero => by
      rw [zero] at moved
      simp at moved
      omega
    have forward : seq - a.anchor ≤ 0x7FFFFFFF := UInt32.le_iff_toNat_le.mpr (by
      rw [moved]
      have : (0x7FFFFFFF : UInt32).toNat = 2 ^ 31 - 1 := rfl
      omega)
    simp only [if_neg some_, if_pos forward]
    exact stands.advance newer
  · have older : rank base seq ≤ rank base a.anchor := Nat.le_of_not_lt newer
    have back := rank_sub older
    by_cases same : seq - a.anchor = 0
    · have isAnchor : seq = a.anchor := by
        rw [← UInt32.toNat_inj] at same
        simp only [UInt32.toNat_sub, UInt32.toNat_zero] at same
        have := seq.toNat_lt
        have := a.anchor.toNat_lt
        exact UInt32.toNat_inj.mp (by omega)
      simp only [if_pos same]
      refine stands.mark older (stands.bitmap.congr fun i _ => ?_)
      rw [isAnchor, UInt32.sub_self]
      simp
    · have apart : (seq - a.anchor).toNat + (a.anchor - seq).toNat = 2 ^ 32 := by
        rw [← UInt32.toNat_inj] at same
        simp only [UInt32.toNat_sub, UInt32.toNat_zero] at same ⊢
        have := seq.toNat_lt
        have := a.anchor.toNat_lt
        omega
      have backward : ¬ seq - a.anchor ≤ 0x7FFFFFFF := fun forward => by
        have : (seq - a.anchor).toNat ≤ 2 ^ 31 - 1 := UInt32.le_iff_toNat_le.mp forward
        omega
      simp only [if_neg same, if_neg backward]
      by_cases inRange : 1 ≤ a.anchor - seq ∧ a.anchor - seq ≤ 32
      · have low : 1 ≤ (a.anchor - seq).toNat := UInt32.le_iff_toNat_le.mp inRange.1
        have high : (a.anchor - seq).toNat ≤ 32 := UInt32.le_iff_toNat_le.mp inRange.2
        have place : (a.anchor - seq - 1).toNat = (a.anchor - seq).toNat - 1 :=
          UInt32.toNat_sub_of_le _ _ inRange.1
        have marked := stands.bitmap.mark (a.anchor - seq - 1).toNat
        rw [← one_shl32_toBitVec (by omega)] at marked
        rw [if_pos inRange]
        refine stands.mark older (marked.congr fun i _ => or_congr ?_ Iff.rfl)
        omega
      · rw [if_neg inRange]
        refine stands.mark older (stands.bitmap.congr fun i inside => ?_)
        have outside : i + 1 ≠ (a.anchor - seq).toNat := fun here => inRange
          ⟨UInt32.le_iff_toNat_le.mpr (by simp; omega),
            UInt32.le_iff_toNat_le.mpr (by simp; omega)⟩
        simp only [outside, false_or]

/-- The tracker after the numbers of a window, in any order and with repetitions. -/
theorem stands_foldl (nonzero : 0 ∉ received)
    (window : ∀ seq ∈ received, rank base seq < 2 ^ 31) (some_ : received ≠ []) :
    Stands base received (received.foldl AckTracker.record {}) := by
  induction received using List.reverseRecOn with
  | nil => exact absurd rfl some_
  | append_singleton received seq ih =>
      have positive : seq ≠ 0 :=
        fun zero => nonzero (zero ▸ List.mem_append_right _ List.mem_cons_self)
      have ranked := window seq (List.mem_append_right _ List.mem_cons_self)
      rw [List.foldl_append, List.foldl_cons, List.foldl_nil]
      by_cases first : received = []
      · subst first
        have start : ({} : AckTracker).record seq = ⟨seq, 0⟩ := by
          rw [AckTracker.record, if_neg positive]
          rfl
        rw [List.foldl_nil, start]
        refine ⟨List.mem_cons_self, fun s member => ?_,
          .zero fun i _ ⟨s, member, place⟩ => ?_⟩
        · rw [List.mem_singleton.mp member]
        · rw [List.mem_singleton.mp member, UInt32.sub_self] at place
          cases place
      · have before := ih (fun zero => nonzero (List.mem_append_left _ zero))
          (fun s member => window s (List.mem_append_left _ member)) first
        refine before.record positive (fun zero => ?_) ranked
          (window _ (List.mem_append_left _ before.member))
        exact nonzero (zero ▸ List.mem_append_left _ before.member)

theorem Stands.anchor_eq (stands : Stands base received a) {newest : UInt32}
    (member : newest ∈ received)
    (top : ∀ seq ∈ received, rank base seq ≤ rank base newest) : newest = a.anchor :=
  rank_injective (Nat.le_antisymm (stands.newest newest member) (top a.anchor stands.member))

theorem Stands.peerAcked_iff (stands : Stands base received a) (nonzero : 0 ∉ received)
    (session : Session) (seq : UInt32) :
    (session.observeAcks a.snapshot.1 a.snapshot.2).peerAcked seq = true ↔ seq ∈ received ∧
    (a.anchor - seq).toNat ≤ 32 := by
  have anchored : a.anchor ≠ 0 := fun zero => nonzero (zero ▸ stands.member)
  have reads : (session.observeAcks a.snapshot.1 a.snapshot.2).peerAcked seq =
      if seq = 0 ∨ a.anchor = 0 then false
      else if seq = a.anchor then true
      else if 1 ≤ a.anchor - seq ∧ a.anchor - seq ≤ 32
        then (a.bitmap >>> (a.anchor - seq - 1)) &&& 1 == 1
      else false := rfl
  rw [reads]
  by_cases zero : seq = 0
  · rw [if_pos (.inl zero), zero]
    simp [nonzero]
  rw [if_neg (not_or.mpr ⟨zero, anchored⟩)]
  by_cases top : seq = a.anchor
  · rw [if_pos top, top, UInt32.sub_self]
    simp [stands.member]
  rw [if_neg top]
  have apart : (a.anchor - seq).toNat ≠ 0 := fun same => top (by
    simp only [UInt32.toNat_sub] at same
    have := seq.toNat_lt
    have := a.anchor.toNat_lt
    exact UInt32.toNat_inj.mp (by omega))
  by_cases inRange : 1 ≤ a.anchor - seq ∧ a.anchor - seq ≤ 32
  · have high : (a.anchor - seq).toNat ≤ 32 := UInt32.le_iff_toNat_le.mp inRange.2
    have place : (a.anchor - seq - 1).toNat = (a.anchor - seq).toNat - 1 :=
      UInt32.toNat_sub_of_le _ _ inRange.1
    rw [if_pos inRange, bit_test32 _ (by omega), stands.bitmap _ (by omega), place]
    constructor
    · rintro ⟨s, member, back⟩
      have same : s = seq := by
        have back : (a.anchor - s).toNat = (a.anchor - seq).toNat := by omega
        exact UInt32.sub_right_inj a.anchor |>.mp (UInt32.toNat_inj.mp back)
      exact ⟨same ▸ member, high⟩
    · rintro ⟨member, -⟩
      exact ⟨seq, member, by omega⟩
  · rw [if_neg inRange]
    have far : ¬ (a.anchor - seq).toNat ≤ 32 := fun near => inRange
      ⟨UInt32.le_iff_toNat_le.mpr (by simp; omega), UInt32.le_iff_toNat_le.mpr near⟩
    simp [far]

/-- The sender takes a number as acknowledged exactly when it was received and is the
    newest or one of the 32 below it, so the order of arrival does not matter. -/
theorem peerAcked_foldl_iff (session : Session) (base : UInt32) (received : List UInt32)
    (nonzero : 0 ∉ received) (window : ∀ seq ∈ received, rank base seq < 2 ^ 31)
    (seq : UInt32) :
    (let a := received.foldl AckTracker.record {}
     (session.observeAcks a.snapshot.1 a.snapshot.2).peerAcked seq = true ↔
      seq ∈ received ∧ ∃ newest ∈ received,
      (∀ s ∈ received, rank base s ≤ rank base newest) ∧ (newest - seq).toNat ≤ 32) ∧
    ∀ received' : List UInt32, (∀ s, s ∈ received' ↔ s ∈ received) →
      (let a := received.foldl AckTracker.record {}
       let a' := received'.foldl AckTracker.record {}
       (session.observeAcks a'.snapshot.1 a'.snapshot.2).peerAcked seq =
        (session.observeAcks a.snapshot.1 a.snapshot.2).peerAcked seq) := by
  have acked : ∀ list : List UInt32, (∀ s, s ∈ list ↔ s ∈ received) →
      (let a := list.foldl AckTracker.record {}
       (session.observeAcks a.snapshot.1 a.snapshot.2).peerAcked seq = true ↔
        seq ∈ received ∧ ∃ newest ∈ received,
        (∀ s ∈ received, rank base s ≤ rank base newest) ∧
        (newest - seq).toNat ≤ 32) := by
    intro list same
    by_cases none : list = []
    · subst none
      have nothing : ∀ s, s ∉ received := fun s member => List.not_mem_nil ((same s).mpr member)
      simp [Session.peerAcked, Session.observeAcks, snapshot, nothing]
    · have stands : Stands base list (list.foldl AckTracker.record {}) :=
        stands_foldl (fun zero => nonzero ((same 0).mp zero))
          (fun s member => window s ((same s).mp member)) none
      refine (stands.peerAcked_iff (fun zero => nonzero ((same 0).mp zero)) session seq).trans ?_
      rw [same seq]
      refine and_congr_right fun _ => ⟨fun near => ?_, ?_⟩
      · exact ⟨_, (same _).mp stands.member, fun s member =>
          stands.newest s ((same s).mpr member), near⟩
      · rintro ⟨newest, member, top, near⟩
        rw [← stands.anchor_eq ((same _).mpr member) fun s old => top s ((same s).mp old)]
        exact near
  refine ⟨acked received fun _ => Iff.rfl, fun received' same => ?_⟩
  rw [Bool.eq_iff_iff]
  exact (acked received' same).trans (acked received fun _ => Iff.rfl).symm

/-- Across the wrap, and out of order with a repetition. -/
theorem peerAcked_foldl_wrap :
    (let a := [2, 0xFFFFFFFF, 1, 0xFFFFFFFF].foldl AckTracker.record {}
     ((Session.new 7 .initiator).observeAcks a.snapshot.1 a.snapshot.2).peerAcked
       0xFFFFFFFF = true) := by
  -- the ranks of 2, 0xFFFFFFFF and 1, from 0xFFFFFFFF on
  have ranks : rank 0xFFFFFFFF 2 = 3 ∧ rank 0xFFFFFFFF 0xFFFFFFFF = 0 ∧ rank 0xFFFFFFFF 1 = 2 :=
    ⟨rfl, rfl, rfl⟩
  have window : ∀ seq ∈ [2, 0xFFFFFFFF, 1, 0xFFFFFFFF], rank 0xFFFFFFFF seq < 2 ^ 31 := by
    simp [ranks]
  refine (peerAcked_foldl_iff (.new 7 .initiator) 0xFFFFFFFF [2, 0xFFFFFFFF, 1, 0xFFFFFFFF]
    (by simp) window 0xFFFFFFFF).1.mpr ⟨by simp, 2, by simp, ?_, by decide⟩
  simp [ranks]

end AckTracker

end Rustnies
