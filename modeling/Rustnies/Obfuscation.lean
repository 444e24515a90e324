import Rustnies.Protocol.Header
import Mathlib.Data.List.Destutter
import Mathlib.Data.List.Forall2
import Mathlib.Data.List.Sort

/-! # Obfuscation layers

`obfuscation/`: a stack of transforms between the frame and the transport. The
padding layer writes a length and pads to a bucket, the timing layer leaves the
bytes alone, and the whitening layer XORs a per-session keystream over the first
24 bytes. On receipt the layers are reversed in reverse order.
-/

namespace Rustnies

inductive ObfuscationError where
  | rejected
  | tooLarge (size : Nat)
  deriving Repr, DecidableEq

def LEN_PREFIX : Nat := 2
def DEFAULT_BUCKETS : List Nat := [128, 256, 512, 1024, 1400]
def DEFAULT_MAX : Nat := 1400
def HKDF_INFO : String := "rustnies-obfuscation-header-xor"
def DECOY_PACKET_TYPE : UInt8 := 0x7F

variable {β : Type} [Byte β]

/-! ## Padding -/

/-- Sorted buckets without duplicates, none below the length prefix. -/
structure SizePadding where
  buckets : List Nat
  max : Nat
  deriving Repr, DecidableEq

namespace SizePadding

/-- `sort_unstable`, `dedup`, `retain`. -/
def new (buckets : List Nat) (max : Nat) : SizePadding where
  buckets := (buckets.mergeSort.destutter (· ≠ ·)).filter (LEN_PREFIX ≤ ·)
  max := max

def pickBucket (p : SizePadding) (frameLen : Nat) : Option Nat :=
  p.buckets.find? (frameLen + LEN_PREFIX ≤ ·)

def apply (p : SizePadding) (frame : List β) : List β :=
  let need := frame.length + LEN_PREFIX
  if p.max < need then lits (be16 frame.length) ++ frame
  else
    let total := (p.pickBucket frame.length).getD need
    lits (be16 frame.length) ++ frame ++ List.replicate (total - need) (Byte.lit 0)

def reverse (buf : List β) : Except ObfuscationError (List β) :=
  match buf with
  | hi :: lo :: rest =>
      let len := be16Value (Byte.val hi) (Byte.val lo)
      if rest.length < len then .error .rejected else .ok (rest.take len)
  | _ => .error .rejected

end SizePadding

/-! ## Header whitening -/

/-- `[u8; HEADER_LEN]`. -/
abbrev Keystream (β : Type) := { ks : List β // ks.length = HEADER_LEN }

/-- XOR the keystream over the first `HEADER_LEN` bytes; shorter buffers are left
    alone. -/
def xorHeader (keystream : Keystream β) (buf : List β) : List β :=
  if buf.length < HEADER_LEN then buf
  else List.zipWith Byte.xor (buf.take HEADER_LEN) keystream.1 ++ buf.drop HEADER_LEN

/-! ## Layers and stacks -/

inductive ObfuscationLayer (β : Type) where
  | padding (config : SizePadding)
  | timing
  | headerXor (keystream : Option (Keystream β))

namespace ObfuscationLayer

def name : ObfuscationLayer β → String
  | .padding _ => "padding"
  | .timing => "timing"
  | .headerXor _ => "header_xor"

def apply : ObfuscationLayer β → List β → List β
  | .padding p, frame => p.apply frame
  | .timing, frame => frame
  | .headerXor none, frame => frame
  | .headerXor (some keystream), frame => xorHeader keystream frame

def reverse : ObfuscationLayer β → List β → Except ObfuscationError (List β)
  | .padding _, buf => SizePadding.reverse buf
  | .timing, buf => .ok buf
  | .headerXor none, buf => .ok buf
  | .headerXor (some keystream), buf => .ok (xorHeader keystream buf)

/-- Key the layer from the session seed; `derive` is HKDF-SHA256 with `HKDF_INFO`. -/
def init (derive : List β → Keystream β) (seed : List β) :
    ObfuscationLayer β → ObfuscationLayer β
  | .headerXor _ => .headerXor (some (derive seed))
  | layer => layer

end ObfuscationLayer

abbrev ObfuscationStack (β : Type) := List (ObfuscationLayer β)

namespace ObfuscationStack

def active (stack : ObfuscationStack β) : Bool := !stack.isEmpty

def init (derive : List β → Keystream β) (seed : List β) (stack : ObfuscationStack β) :
    ObfuscationStack β :=
  stack.map (·.init derive seed)

def apply (stack : ObfuscationStack β) (frame : List β) : List β :=
  stack.foldl (fun buf layer => layer.apply buf) frame

def reverse (stack : ObfuscationStack β) (buf : List β) : Except ObfuscationError (List β) :=
  (List.reverse stack).foldlM (fun cur layer => layer.reverse cur) buf

end ObfuscationStack

/-! ## What the layers undo -/

theorem xorHeader_length (keystream : Keystream β) (buf : List β) :
    (xorHeader keystream buf).length = buf.length := by
  unfold xorHeader
  split
  · rfl
  · rename_i long
    simp only [List.length_append, List.length_zipWith, List.length_take, List.length_drop,
      keystream.2]
    omega

namespace ObfuscationLayer

theorem length_le_apply (layer : ObfuscationLayer β) (frame : List β) :
    frame.length ≤ (layer.apply frame).length := by
  match layer with
  | .padding p =>
      simp only [apply, SizePadding.apply]
      split
      · simp
      · simp
        omega
  | .timing => exact Nat.le_refl _
  | .headerXor none => exact Nat.le_refl _
  | .headerXor (some keystream) => exact Nat.le_of_eq (xorHeader_length keystream frame).symm

end ObfuscationLayer

theorem SizePadding.reverse_apply (p : SizePadding) {frame : List β}
    (fits : frame.length < 65536) :
    SizePadding.reverse (p.apply frame) = .ok frame := by
  have len : be16Value (Byte.val (Byte.lit (UInt8.ofNat (frame.length / 256 % 256)) : β))
      (Byte.val (Byte.lit (UInt8.ofNat (frame.length % 256)) : β)) = frame.length := by
    rw [Byte.val_lit, Byte.val_lit, be16Value_be16 fits]
  simp only [SizePadding.apply, lits, be16, List.map_cons, List.map_nil]
  split
  · simp only [List.cons_append, List.nil_append, SizePadding.reverse, len, Nat.lt_irrefl,
      if_false, List.take_length]
  · simp only [List.cons_append, List.nil_append, SizePadding.reverse, len, List.length_append]
    rw [if_neg (by omega), List.take_left]

theorem xorHeader_xorHeader (keystream : Keystream UInt8) (buf : Bytes) :
    xorHeader keystream (xorHeader keystream buf) = buf := by
  have width := keystream.2
  by_cases short : buf.length < HEADER_LEN
  · simp only [xorHeader, short, if_true]
  · have front : (List.zipWith Byte.xor (buf.take HEADER_LEN) keystream.1).length =
      HEADER_LEN := by
      simp only [List.length_zipWith, List.length_take, width]
      omega
    have whitened := xorHeader_length keystream buf
    rw [xorHeader, if_neg (by rw [whitened]; exact short), xorHeader, if_neg short,
      List.take_left' front, List.drop_left' front]
    have undo : List.zipWith Byte.xor
        (List.zipWith Byte.xor (buf.take HEADER_LEN) keystream.1) keystream.1 =
        buf.take HEADER_LEN := by
      apply List.ext_getElem
      · simp only [List.length_zipWith, List.length_take, width]
        omega
      · intro i _ _
        simp only [List.getElem_zipWith, Byte.xor]
        rw [UInt8.xor_assoc, UInt8.xor_self, UInt8.xor_zero]
    rw [undo, List.take_append_drop]

/-- The receiver's layer undoes the sender's: the paddings may differ, the keystreams
    may not. -/
inductive ObfuscationLayer.Undoes : ObfuscationLayer UInt8 → ObfuscationLayer UInt8 → Prop where
  | padding (p p' : SizePadding) : Undoes (.padding p) (.padding p')
  | timing : Undoes .timing .timing
  | headerXor (keystream : Option (Keystream UInt8)) : Undoes (.headerXor keystream)
      (.headerXor keystream)

namespace ObfuscationLayer

theorem Undoes.refl (layer : ObfuscationLayer UInt8) : Undoes layer layer := by
  cases layer with
  | padding p => exact .padding p p
  | timing => exact .timing
  | headerXor keystream => exact .headerXor keystream

/-- Layers that undo each other do so once they are keyed from one seed. -/
theorem Undoes.init {layer layer' : ObfuscationLayer UInt8} (undoes : Undoes layer layer')
    (derive : Bytes → Keystream UInt8) (seed : Bytes) :
    Undoes (layer.init derive seed) (layer'.init derive seed) := by
  cases undoes with
  | padding p p' => exact .padding p p'
  | timing => exact .timing
  | headerXor keystream => exact .headerXor _

theorem Undoes.reverse_apply {layer layer' : ObfuscationLayer UInt8} (undoes : Undoes layer layer')
    {frame : Bytes} (fits : ∀ p, layer = .padding p → frame.length ≤ 65535) :
    layer'.reverse (layer.apply frame) = .ok frame := by
  cases undoes with
  | padding p p' => exact p.reverse_apply (Nat.lt_succ_of_le (fits p rfl))
  | timing => rfl
  | headerXor keystream =>
      cases keystream with
      | none => rfl
      | some keystream => exact congrArg Except.ok (xorHeader_xorHeader keystream frame)

end ObfuscationLayer

namespace ObfuscationStack

theorem length_le_apply (stack : ObfuscationStack β) (frame : List β) :
    frame.length ≤ (stack.apply frame).length := by
  induction stack generalizing frame with
  | nil => exact Nat.le_refl _
  | cons layer stack ih => exact Nat.le_trans (layer.length_le_apply frame) (ih (layer.apply frame))

/-- No buffer handed to a padding layer is too long for its 16-bit length. -/
def PaddingFits (stack : ObfuscationStack UInt8) (frame : Bytes) : Prop :=
  ∀ before p after, stack = before ++ .padding p ::
    after → (apply before frame).length ≤ 65535

theorem PaddingFits.tail {layer : ObfuscationLayer UInt8} {stack : ObfuscationStack UInt8}
    {frame : Bytes} (fits : PaddingFits (layer :: stack) frame) :
    PaddingFits stack (layer.apply frame) := by
  intro before p after split
  exact fits (layer :: before) p after (by rw [split]; rfl)

theorem paddingFits_of_short {stack : ObfuscationStack UInt8} {frame : Bytes}
    (short : (stack.apply frame).length < 65536) : PaddingFits stack frame := by
  rintro before p after rfl
  have split : apply (before ++ .padding p :: after) frame = apply (.padding p :: after)
    (apply before frame) :=
    List.foldl_append
  rw [split] at short
  exact Nat.le_of_lt_succ (Nat.lt_of_le_of_lt (length_le_apply _ _) short)

/-- The receiver's layers, reversed in reverse order, undo the sender's. -/
theorem reverse_apply_of_undoes {stack stack' : ObfuscationStack UInt8}
    (undoes : List.Forall₂ ObfuscationLayer.Undoes stack stack') {frame : Bytes}
    (fits : PaddingFits stack frame) : reverse stack' (apply stack frame) = .ok frame := by
  induction undoes generalizing frame with
  | nil => rfl
  | @cons layer layer' stack stack' first rest ih =>
      have inner := ih fits.tail
      have split : reverse (layer' :: stack') (apply (layer :: stack) frame) =
          (reverse stack' (apply stack (layer.apply frame))).bind layer'.reverse := by
        simp only [reverse, apply, List.reverse_cons, List.foldlM_append, List.foldl_cons,
          List.foldlM_cons, List.foldlM_nil, bind_pure]
        rfl
      rw [split, inner]
      refine first.reverse_apply fun p isPadding => ?_
      exact fits [] p stack (by rw [isPadding]; rfl)

/-- A frame whose obfuscated form is short enough for a 16-bit length is recovered,
    whatever the layers and their order. -/
theorem reverse_apply (stack : ObfuscationStack UInt8) {frame : Bytes}
    (fits : (stack.apply frame).length < 65536) : stack.reverse (stack.apply frame) = .ok frame :=
  reverse_apply_of_undoes (List.forall₂_same.mpr fun layer _ => .refl layer)
    (paddingFits_of_short fits)

end ObfuscationStack

/-! ## How long padding makes a frame -/

namespace SizePadding

theorem mem_buckets_new {buckets : List Nat} {max b : Nat} :
    b ∈ (new buckets max).buckets ↔ b ∈ buckets ∧ LEN_PREFIX ≤ b := by
  have sorted : buckets.mergeSort.Pairwise (· ≤ ·) :=
    List.pairwise_mergeSort' (· ≤ ·) buckets
  rw [new, List.mem_filter, sorted.destutter_eq_dedup, List.mem_dedup, List.mem_mergeSort,
    decide_eq_true_eq]

theorem buckets_new_sorted (buckets : List Nat) (max : Nat) :
    (new buckets max).buckets.Pairwise (· ≤ ·) := by
  have sorted : buckets.mergeSort.Pairwise (· ≤ ·) :=
    List.pairwise_mergeSort' (· ≤ ·) buckets
  exact sorted.sublist (List.filter_sublist.trans (List.destutter_sublist _ _))

theorem pickBucket_eq_some {p : SizePadding} (sorted : p.buckets.Pairwise (· ≤ ·))
    {frameLen b : Nat} (picked : p.pickBucket frameLen = some b) :
    b ∈ p.buckets ∧ frameLen + LEN_PREFIX ≤ b ∧ ∀ b' ∈ p.buckets,
    frameLen + LEN_PREFIX ≤ b' → b ≤ b' := by
  obtain ⟨holds, before, after, split, smaller⟩ := List.find?_eq_some_iff_append.mp picked
  refine ⟨List.mem_of_find?_eq_some picked, of_decide_eq_true holds, fun b' member holds' => ?_⟩
  rw [split] at member sorted
  rcases List.mem_append.mp member with early | late
  · have tooSmall := smaller b' early
    simp only [Bool.not_eq_eq_eq_not, Bool.not_true, decide_eq_false_iff_not] at tooSmall
    exact absurd holds' tooSmall
  · rcases List.mem_cons.mp late with same | later
    · exact Nat.le_of_eq same.symm
    · exact (List.pairwise_cons.mp (List.pairwise_append.mp sorted).2.1).1 b' later

theorem apply_length (p : SizePadding) (frame : List β) :
    (p.apply frame).length = if p.max < frame.length + LEN_PREFIX then frame.length + LEN_PREFIX
      else (p.pickBucket frame.length).getD (frame.length + LEN_PREFIX) := by
  have need : (lits (be16 frame.length) ++ frame : List β).length = frame.length + LEN_PREFIX := by
    simp [LEN_PREFIX, Nat.add_comm]
  simp only [apply]
  split
  · exact need
  · rw [List.length_append, need, List.length_replicate]
    refine Nat.add_sub_cancel' ?_
    cases picked : p.pickBucket frame.length with
    | none => exact Nat.le_refl _
    | some b =>
        have holds := List.find?_some picked
        exact of_decide_eq_true holds

/-- The smallest of the buckets that holds a length and stays within the maximum, or the
    length itself when there is none. -/
def PadsTo (buckets : List Nat) (max need total : Nat) : Prop :=
  (total ∈ buckets ∧ need ≤ total ∧ total ≤ max ∧ ∀ b ∈ buckets,
    need ≤ b → b ≤ max → total ≤ b) ∨
    (total = need ∧ ∀ b ∈ buckets, need ≤ b → max < b)

theorem PadsTo.le_max {buckets : List Nat} {max need total : Nat}
    (pads : PadsTo buckets max need total) (fits : need ≤ max) : total ≤ max := by
  rcases pads with ⟨-, -, within, -⟩ | ⟨rfl, -⟩
  · exact within
  · exact fits

/-- A frame is padded within the maximum exactly when it exceeds the maximum itself, or
    one of the buckets that hold it does not, if there are any. -/
theorem apply_padsTo_iff (buckets : List Nat) (max : Nat) (frame : List β) :
    (PadsTo buckets max (frame.length + LEN_PREFIX) ((new buckets max).apply frame).length ∧
      (frame.length + LEN_PREFIX ≤ max → ((new buckets max).apply frame).length ≤ max)) ↔
    (frame.length + LEN_PREFIX ≤ max → (∃ b ∈ buckets, frame.length + LEN_PREFIX ≤ b) →
      ∃ b ∈ buckets, frame.length + LEN_PREFIX ≤ b ∧ b ≤ max) := by
  obtain ⟨need, isNeed⟩ : ∃ need, need = frame.length + LEN_PREFIX := ⟨_, rfl⟩
  have prefixed : LEN_PREFIX ≤ need := isNeed ▸ Nat.le_add_left _ _
  have known : ∀ b, need ≤ b → (b ∈ (new buckets max).buckets ↔ b ∈ buckets) :=
    fun b holds =>
      mem_buckets_new.trans (and_iff_left (prefixed.trans holds))
  have length : ((new buckets max).apply frame).length = if max < frame.length + LEN_PREFIX
      then frame.length + LEN_PREFIX
      else ((new buckets max).pickBucket frame.length).getD (frame.length + LEN_PREFIX) :=
      apply_length _ frame
  rw [← isNeed] at length ⊢
  by_cases large : max < need
  · rw [if_pos large] at length
    refine iff_of_true ⟨.inr ⟨length, fun b _ holds => large.trans_le holds⟩, fun fits =>
      ?_⟩ fun fits => ?_
    · exact absurd fits (Nat.not_le.mpr large)
    · exact absurd fits (Nat.not_le.mpr large)
  · have fits := Nat.le_of_not_lt large
    rw [if_neg large] at length
    cases picked : (new buckets max).pickBucket frame.length with
    | none =>
        rw [picked, Option.getD_none] at length
        have none : ∀ b ∈ buckets, ¬ need ≤ b := fun b member holds => by
          have small := List.find?_eq_none.mp picked b ((known b holds).mpr member)
          rw [← isNeed] at small
          exact small (decide_eq_true holds)
        have pads : PadsTo buckets max need ((new buckets max).apply frame).length :=
          .inr ⟨length, fun b member holds => absurd holds (none b member)⟩
        refine iff_of_true ⟨pads, pads.le_max⟩ fun _ some => ?_
        obtain ⟨b, member, holds⟩ := some
        exact absurd holds (none b member)
    | some b =>
        rw [picked, Option.getD_some] at length
        obtain ⟨member, holds, smallest⟩ :=
          pickBucket_eq_some (buckets_new_sorted buckets max) picked
        rw [← isNeed] at holds smallest
        have own := (known b holds).mp member
        have least : ∀ b' ∈ buckets, need ≤ b' → b ≤ b' := fun b' member' holds' =>
          smallest b' ((known b' holds').mpr member') holds'
        constructor
        · rintro ⟨-, within⟩ _ _
          exact ⟨b, own, holds, length ▸ within fits⟩
        · intro some
          obtain ⟨b', member', holds', within'⟩ := some fits ⟨b, own, holds⟩
          have within : b ≤ max := (least b' member' holds').trans within'
          have pads : PadsTo buckets max need ((new buckets max).apply frame).length := by
            rw [length]
            exact .inl ⟨own, holds, within, fun b' member' holds' _ => least b' member' holds'⟩
          exact ⟨pads, pads.le_max⟩

/-- A bucket above the maximum is used for a frame below it. -/
theorem oversized_bucket_used : ¬ ∀ (buckets : List Nat) (max : Nat) (frame : Bytes),
    PadsTo buckets max (frame.length + LEN_PREFIX) ((new buckets max).apply frame).length ∧
      (frame.length + LEN_PREFIX ≤ max → ((new buckets max).apply frame).length ≤ max) := by
  intro pads
  have within := (pads [4, 16] 8 [1, 2, 3]).2 (by decide)
  have cleaned : new [4, 16] 8 = ⟨[4, 16], 8⟩ := by
    rw [new, List.mergeSort_of_pairwise (by decide)]
    rfl
  rw [cleaned] at within
  exact absurd within (by decide)

theorem apply_le_max {buckets : List Nat} {max : Nat} (bounded : ∀ b ∈ buckets, b ≤ max)
    {frame : List β} (fits : frame.length + LEN_PREFIX ≤ max) :
    ((new buckets max).apply frame).length ≤ max := by
  rw [apply_length]
  split
  · exact fits
  · cases picked : (new buckets max).pickBucket frame.length with
    | none => exact fits
    | some b => exact bounded b (mem_buckets_new.mp (List.mem_of_find?_eq_some picked)).1

/-- `from_config`: an empty list and a zero stand for the defaults. -/
def fromConfig (paddingBuckets : List Nat) (paddingMax : Nat) : SizePadding :=
  new (if paddingBuckets.isEmpty then DEFAULT_BUCKETS else paddingBuckets)
    (if paddingMax = 0 then DEFAULT_MAX else paddingMax)

theorem fromConfig_defaults_le {frame : List β}
    (fits : frame.length + LEN_PREFIX ≤ DEFAULT_MAX) :
    ((fromConfig [] 0).apply frame).length ≤ DEFAULT_MAX :=
  apply_le_max (by decide) fits

end SizePadding

theorem SizePadding.apply_length_le (p : SizePadding) {limit : Nat}
    (bounded : ∀ b ∈ p.buckets, b ≤ limit) (frame : List β) :
    (p.apply frame).length ≤ Max.max limit (frame.length + LEN_PREFIX) := by
  rw [apply_length]
  split
  · exact Nat.le_max_right _ _
  · cases picked : p.pickBucket frame.length with
    | none => exact Nat.le_max_right _ _
    | some b =>
        exact Nat.le_trans (bounded b (List.mem_of_find?_eq_some picked)) (Nat.le_max_left _ _)

namespace ObfuscationLayer

def isPadding : ObfuscationLayer β → Bool
  | .padding _ => true
  | .timing | .headerXor _ => false

theorem apply_length (layer : ObfuscationLayer β) (other : layer.isPadding = false)
    (frame : List β) :
    (layer.apply frame).length = frame.length := by
  cases layer with
  | padding p => cases other
  | timing => rfl
  | headerXor keystream =>
      cases keystream with
      | none => rfl
      | some keystream => exact xorHeader_length keystream frame

end ObfuscationLayer

namespace ObfuscationStack

/-- At most one padding layer, whose buckets and maximum are at most `limit`, among any
    number of the others. -/
structure PadsOnce (limit : Nat) (stack : ObfuscationStack β) : Prop where
  once : stack.countP ObfuscationLayer.isPadding ≤ 1
  within : ∀ p, .padding p ∈ stack → p.max ≤ limit ∧ ∀ b ∈ p.buckets, b ≤ limit

theorem apply_length {stack : ObfuscationStack β}
    (bare : stack.countP ObfuscationLayer.isPadding = 0) (frame : List β) :
    (stack.apply frame).length = frame.length := by
  induction stack generalizing frame with
  | nil => rfl
  | cons layer stack ih =>
      have other := List.countP_eq_zero.mp bare
      have rest : stack.countP ObfuscationLayer.isPadding = 0 :=
        List.countP_eq_zero.mpr fun later member => other later (List.mem_cons_of_mem _ member)
      have first : layer.isPadding = false := by simpa using other layer List.mem_cons_self
      exact (ih rest (layer.apply frame)).trans (layer.apply_length first frame)

/-- The padding is paid for once, wherever it stands in the stack. -/
theorem PadsOnce.apply_length_le {limit : Nat} {stack : ObfuscationStack β}
    (pads : PadsOnce limit stack) (frame : List β) :
    (stack.apply frame).length ≤ max limit (frame.length + LEN_PREFIX) := by
  induction stack generalizing frame with
  | nil => exact Nat.le_trans (Nat.le_add_right _ _) (Nat.le_max_right _ _)
  | cons layer stack ih =>
      obtain ⟨once, within⟩ := pads
      rw [List.countP_cons] at once
      cases kind : layer.isPadding with
      | false =>
          have rest : PadsOnce limit stack := ⟨by simpa [kind] using once,
            fun p member => within p (List.mem_cons_of_mem _ member)⟩
          have same := layer.apply_length kind frame
          exact same ▸ ih rest (layer.apply frame)
      | true =>
          have bare : stack.countP ObfuscationLayer.isPadding = 0 := by
            simp only [kind, if_true] at once
            omega
          cases layer with
          | padding p =>
              have bounded := (within p List.mem_cons_self).2
              exact (apply_length bare (p.apply frame)).trans_le (p.apply_length_le bounded frame)
          | timing => cases kind
          | headerXor keystream => cases kind

end ObfuscationStack

/-- A frame that the timing layer's idle tick may have produced. -/
def isDecoyFrame (frame : Bytes) : Bool := frame.head? == some DECOY_PACKET_TYPE

end Rustnies
