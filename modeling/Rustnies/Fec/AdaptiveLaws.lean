import Rustnies.Fec.Adaptive
import Rustnies.Lib.Runs
import Mathlib.Algebra.Field.Rat
import Mathlib.Algebra.Order.Ring.Rat
import Mathlib.Data.List.Induction
import Mathlib.Data.UInt
import Mathlib.Tactic.Linarith
import Mathlib.Tactic.NormNum

/-! # The hysteresis of the controller

A level is meant to hold while the smoothed loss lies between its two thresholds. The
falling loop keeps to that. The rising loop does not: it sets the level of the highest
threshold that the loss exceeds, whether that level is above the current one or below.
-/

namespace Rustnies.AdaptiveFec

variable {K : Type} [Field K] [LinearOrder K] {f : AdaptiveFec K} {s : K}

/-- The level of the threshold at an index, as the loops count it. -/
def level (i : Nat) : UInt8 := UInt8.ofNat (i + 1)

/-- The last two assignments of `observe`. -/
def clamp (f : AdaptiveFec K) (m : UInt8) : UInt8 :=
  let capped := if f.maxM < m then f.maxM else m
  if capped < f.minM then f.minM else capped

/-- The smoothed loss after an observation. -/
def smoothed (f : AdaptiveFec K) (loss : K) : K :=
  f.smoothedLoss * (1 - f.emaAlpha) + loss * f.emaAlpha

omit [Field K] [LinearOrder K] in
theorem toNat_clamp (f : AdaptiveFec K) (m : UInt8) :
    (f.clamp m).toNat = max (min m.toNat f.maxM.toNat) f.minM.toNat := by
  simp only [clamp, UInt8.lt_iff_toNat_lt]
  split <;> split <;> omega

/-! ## The two loops -/

/-- The threshold at an index is the last that the loss exceeds. -/
def LastCrossed (f : AdaptiveFec K) (s : K) (i : Nat) : Prop :=
  (∃ t, f.up[i]? = some t ∧ t < s) ∧ ∀ i' t, i < i' → f.up[i']? = some t → ¬ t < s

omit [Field K] in
/-- The rising loop takes the level of the last threshold that is exceeded. -/
theorem raise_cases (f : AdaptiveFec K) (s : K) (cur : UInt8) :
    (f.raise s cur = cur ∧ ∀ t ∈ f.up, ¬ t < s) ∨
      ∃ i, f.LastCrossed s i ∧ f.raise s cur = min (level i) f.maxM := by
  simp only [raise, LastCrossed]
  generalize f.up = up
  induction up using List.reverseRecOn with
  | nil => exact .inl ⟨rfl, fun _ member => absurd member List.not_mem_nil⟩
  | append_singleton up t ih =>
      rw [List.zipIdx_append, List.foldl_append]
      simp only [List.zipIdx_cons, List.zipIdx_nil, List.foldl_cons, List.foldl_nil, Nat.zero_add]
      by_cases crossed : t < s
      · refine .inr ⟨up.length, ⟨⟨t, by simp, crossed⟩, fun i' t' later found => ?_⟩,
          by rw [if_pos crossed]; rfl⟩
        have inside := (List.getElem?_eq_some_iff.mp found).1
        rw [List.length_append, List.length_singleton] at inside
        omega
      · rw [if_neg crossed]
        rcases ih with ⟨still, none⟩ | ⟨i, ⟨⟨t', found, below⟩, last⟩, raised⟩
        · refine .inl ⟨still, fun t' member => ?_⟩
          rcases List.mem_append.mp member with before | here
          · exact none t' before
          · rwa [List.mem_singleton.mp here]
        · have inside := (List.getElem?_eq_some_iff.mp found).1
          refine .inr ⟨i, ⟨⟨t', ?_, below⟩, fun i' t'' later found' => ?_⟩, raised⟩
          · rw [List.getElem?_append_left inside]
            exact found
          · rcases Nat.lt_or_ge i' up.length with early | late
            · rw [List.getElem?_append_left early] at found'
              exact last i' t'' later found'
            · rw [List.getElem?_append_right late, List.getElem?_singleton] at found'
              split at found'
              · cases found'
                exact crossed
              · cases found'

/-- The falling loop ends below a level above the floor exactly when it starts there, or
    the loss is below the `down` threshold of a level that is there. -/
theorem lower_lt_iff (f : AdaptiveFec K) (s : K) (cur : UInt8) {top : Nat}
    (above : f.minM.toNat < top) :
    (f.lower s cur).toNat < top ↔
      cur.toNat < top ∨ ∃ i < f.up.length, (level i).toNat < top ∧ s < f.down.getD i 0 := by
  have reversed : ∀ i, i ∈ (List.range f.up.length).reverse ↔ i < f.up.length := fun i => by
    rw [List.mem_reverse, List.mem_range]
  have general : ∀ (is : List Nat) (cur : UInt8),
      (is.foldl (fun cur i => if level i < cur ∧ s < f.down.getD i 0 then max (level i) f.minM
        else cur) cur).toNat < top ↔ cur.toNat < top ∨ ∃ i ∈ is, (level i).toNat < top ∧
      s < f.down.getD i 0 := by
    intro is
    induction is with
    | nil => simp
    | cons i is ih =>
        intro cur
        rw [List.foldl_cons, ih]
        by_cases falls : level i < cur ∧ s < f.down.getD i 0
        · rw [if_pos falls, UInt8.toNat_max]
          have lower := UInt8.lt_iff_toNat_lt.mp falls.1
          constructor
          · rintro (low | ⟨i', member, low⟩)
            · exact .inr ⟨i, List.mem_cons_self, by omega, falls.2⟩
            · exact .inr ⟨i', List.mem_cons_of_mem _ member, low⟩
          · rintro (low | ⟨i', member, low⟩)
            · exact .inl (by omega)
            · rcases List.mem_cons.mp member with rfl | later
              · exact .inl (by omega)
              · exact .inr ⟨i', later, low⟩
        · rw [if_neg falls]
          constructor
          · rintro (low | ⟨i', member, low⟩)
            · exact .inl low
            · exact .inr ⟨i', List.mem_cons_of_mem _ member, low⟩
          · rintro (low | ⟨i', member, low, below⟩)
            · exact .inl low
            · rcases List.mem_cons.mp member with rfl | later
              · have notLower : ¬ level i' < cur := fun lower => falls ⟨lower, below⟩
                rw [UInt8.lt_iff_toNat_lt] at notLower
                exact .inl (by omega)
              · exact .inr ⟨i', later, low, below⟩
  have whole := general (List.range f.up.length).reverse cur
  simp only [reversed] at whole
  exact whole

theorem lower_le (f : AdaptiveFec K) (s : K) (cur : UInt8) :
    (f.lower s cur).toNat ≤ max cur.toNat f.minM.toNat := by
  simp only [lower]
  induction (List.range f.up.length).reverse generalizing cur with
  | nil => exact Nat.le_max_left _ _
  | cons i is ih =>
      rw [List.foldl_cons]
      refine (ih _).trans ?_
      split
      · rename_i falls
        have lower := UInt8.lt_iff_toNat_lt.mp falls.1
        rw [UInt8.toNat_max]
        omega
      · exact Nat.le_refl _

omit [Field K] in
theorem lastCrossed_unique {i i' : Nat} (last : f.LastCrossed s i) (last' : f.LastCrossed s i') :
    i = i' := by
  obtain ⟨⟨t, found, crossed⟩, none⟩ := last
  obtain ⟨⟨t', found', crossed'⟩, none'⟩ := last'
  rcases Nat.lt_trichotomy i i' with before | same | after
  · exact absurd crossed' (none i' t' before found')
  · exact same
  · exact absurd crossed (none' i t after found)

theorem lower_eq (f : AdaptiveFec K) {s : K} (above : ∀ i, ¬ s < f.down.getD i 0) (cur : UInt8) :
    f.lower s cur = cur := by
  simp only [lower]
  induction (List.range f.up.length).reverse with
  | nil => rfl
  | cons i is ih => rwa [List.foldl_cons, if_neg fun falls => above i falls.2]

/-! ## One observation -/

/-- The loss is below the `down` threshold of the current level. -/
def BelowDown (f : AdaptiveFec K) (s : K) : Prop :=
  ∃ i d, f.currentM.toNat = i + 1 ∧ f.down[i]? = some d ∧ s < d

/-- The loss exceeds the `up` threshold of a level above the current one. -/
def ExceedsAbove (f : AdaptiveFec K) (s : K) : Prop :=
  ∃ i t, f.currentM.toNat < i + 1 ∧ f.up[i]? = some t ∧ t < s

/-- Apart from the clamping, an observation lowers the level only below its `down`
    threshold, and raises it only above the `up` threshold of a higher level. -/
def Steady (f : AdaptiveFec K) (loss : K) : Prop :=
  ((f.observe loss).currentM < f.clamp f.currentM → f.BelowDown (f.smoothed loss)) ∧
    (f.clamp f.currentM < (f.observe loss).currentM → f.ExceedsAbove (f.smoothed loss))

/-- The current level, as far as the maximum allows it. -/
def top (f : AdaptiveFec K) : UInt8 := min f.currentM f.maxM

/-- Where the level may not fall, the highest threshold that the loss exceeds is that of a
    level no lower, and the loss is below no `down` threshold of a lower level. -/
def KeepsBand (f : AdaptiveFec K) (loss : K) : Prop :=
  f.minM < f.top → ¬ f.BelowDown (f.smoothed loss) →
    (∀ i t, f.up[i]? = some t → t < f.smoothed loss →
      (∀ t', f.up[i + 1]? = some t' → ¬ t' < f.smoothed loss) → f.top ≤ level i) ∧
    ∀ i d, f.down[i]? = some d → f.smoothed loss < d → i ≠ 0 ∧ f.top ≤ level i

/-- The level between the loops and the clamping. -/
def floored (f : AdaptiveFec K) (s : K) : UInt8 :=
  match f.down with
  | [] => f.lower s (f.raise s f.currentM)
  | lowest :: _ => if s < lowest then f.minM else f.lower s (f.raise s f.currentM)

theorem floored_nil (isDown : f.down = []) : f.floored s = f.lower s (f.raise s f.currentM) := by
  simp only [floored, isDown]

theorem floored_cons {lowest : K} {rest : List K} (isDown : f.down = lowest :: rest) :
    f.floored s = if s < lowest then f.minM else f.lower s (f.raise s f.currentM) := by
  simp only [floored, isDown]

theorem observe_currentM (f : AdaptiveFec K) (loss : K) :
    (f.observe loss).currentM = f.clamp (f.floored (f.smoothed loss)) := rfl

omit [Field K] in
theorem level_le (i : Nat) : (level i).toNat ≤ i + 1 := by
  rw [level, UInt8.toNat_ofNat']
  exact Nat.mod_le _ _

omit [Field K] in
theorem lastCrossed_iff (increasing : f.up.Pairwise (· < ·)) {i : Nat} :
    f.LastCrossed s i ↔ (∃ t, f.up[i]? = some t ∧ t < s) ∧
    ∀ t, f.up[i + 1]? = some t → ¬ t < s := by
  refine and_congr_right fun _ =>
    ⟨fun last t => last (i + 1) t (Nat.lt_succ_self i), fun next i' t later found => ?_⟩
  intro crossed
  have inside := (List.getElem?_eq_some_iff.mp found).1
  have before : i + 1 < f.up.length := by omega
  refine next f.up[i + 1] (List.getElem?_eq_getElem before) (lt_of_le_of_lt ?_ crossed)
  obtain ⟨_, rfl⟩ := List.getElem?_eq_some_iff.mp found
  rcases Nat.eq_or_lt_of_le later with here | beyond
  · exact le_of_eq (by congr)
  · exact le_of_lt (List.pairwise_iff_getElem.mp increasing _ _ _ _ beyond)

/-- The loops take the level below the top exactly when the last exceeded threshold is
    that of a lower level, or a lower level's `down` threshold, or the lowest, is above
    the loss. -/
theorem floored_lt_iff (matched : f.down.length = f.up.length) {top : Nat}
    (floor : f.minM.toNat < top) (within : top ≤ min f.currentM.toNat f.maxM.toNat) :
    (f.floored s).toNat < top ↔ (∃ i, f.LastCrossed s i ∧ (level i).toNat < top) ∨
      ∃ i d, f.down[i]? = some d ∧ s < d ∧ (i = 0 ∨ (level i).toNat < top) := by
  have raised : (f.raise s f.currentM).toNat < top ↔ ∃ i, f.LastCrossed s i ∧
    (level i).toNat < top := by
    rcases f.raise_cases s f.currentM with ⟨still, none⟩ | ⟨i, last, raised⟩
    · rw [still]
      refine iff_of_false (by omega) ?_
      rintro ⟨i, ⟨⟨t, found, crossed⟩, -⟩, -⟩
      exact none t (List.mem_of_getElem? found) crossed
    · rw [raised, UInt8.toNat_min]
      constructor
      · intro low
        exact ⟨i, last, by omega⟩
      · rintro ⟨i', last', low⟩
        rw [lastCrossed_unique last last']
        omega
  have banded := f.lower_lt_iff s (f.raise s f.currentM) floor
  rw [raised] at banded
  have slots : ∀ i d, f.down[i]? = some d → i < f.up.length ∧ f.down.getD i 0 = d :=
    fun i d found => by
    obtain ⟨inside, value⟩ := List.getElem?_eq_some_iff.mp found
    exact ⟨matched ▸ inside, by rw [List.getD_eq_getElem?_getD, found, Option.getD_some]⟩
  have falls : (∃ i < f.up.length, (level i).toNat < top ∧ s < f.down.getD i 0) ↔
      ∃ i d, f.down[i]? = some d ∧ s < d ∧ (level i).toNat < top := by
    constructor
    · rintro ⟨i, inside, low, below⟩
      refine ⟨i, _, List.getElem?_eq_getElem (matched ▸ inside), ?_, low⟩
      rwa [List.getD_eq_getElem?_getD, List.getElem?_eq_getElem (matched ▸ inside),
        Option.getD_some] at below
    · rintro ⟨i, d, found, below, low⟩
      obtain ⟨inside, value⟩ := slots i d found
      exact ⟨i, inside, low, value.symm ▸ below⟩
  rw [falls] at banded
  cases isDown : f.down with
  | nil =>
      rw [isDown] at banded
      rw [floored_nil isDown, banded]
      simp only [List.getElem?_nil, reduceCtorEq, false_and, exists_false]
  | cons lowest rest =>
      rw [isDown] at banded
      rw [floored_cons isDown]
      split
      · rename_i below
        exact iff_of_true floor (.inr ⟨0, lowest, rfl, below, .inl rfl⟩)
      · rename_i above
        rw [banded]
        refine or_congr_right ⟨?_, ?_⟩
        · rintro ⟨i, d, found, below, low⟩
          exact ⟨i, d, found, below, .inr low⟩
        · rintro ⟨i, d, found, below, rfl | low⟩
          · cases found
            exact absurd below above
          · exact ⟨i, d, found, below, low⟩

theorem floored_top {n : Nat} (last : f.up.length = n + 1) (high : ∀ t ∈ f.up, t < s)
    (above : ∀ d ∈ f.down, ¬ s < d) (positive : ¬ s < 0) :
    f.floored s = min (level n) f.maxM := by
  have within : n < f.up.length := by omega
  have crossed : f.LastCrossed s n := by
    refine ⟨⟨_, List.getElem?_eq_getElem within, high _ (List.getElem_mem within)⟩,
      fun i t later found => ?_⟩
    have inside := (List.getElem?_eq_some_iff.mp found).1
    omega
  have raised : f.raise s f.currentM = min (level n) f.maxM := by
    rcases f.raise_cases s f.currentM with ⟨-, none⟩ | ⟨i, crossed', raised⟩
    · exact absurd (high _ (List.getElem_mem within)) (none _ (List.getElem_mem within))
    · rw [raised, lastCrossed_unique crossed' crossed]
  have slots : ∀ i, ¬ s < f.down.getD i 0 := fun i => by
    rw [List.getD_eq_getElem?_getD]
    cases found : f.down[i]? with
    | none => exact positive
    | some d => exact above d (List.mem_of_getElem? found)
  have kept := f.lower_eq slots (f.raise s f.currentM)
  cases isDown : f.down with
  | nil => rw [floored_nil isDown, kept, raised]
  | cons lowest rest =>
      have first : ¬ s < lowest := above lowest (isDown ▸ List.mem_cons_self)
      rw [floored_cons isDown, if_neg first, kept, raised]

theorem withParams_up_le [IsStrictOrderedRing K] (k minM maxM initialM : UInt8) (alpha : K) :
    ∀ t ∈ (withParams k minM maxM initialM alpha).up, t ≤ 89 / 100 := by
  intro t member
  simp only [withParams, List.mem_map, List.mem_range] at member
  obtain ⟨i, inside, rfl⟩ := member
  split
  · linarith
  · have share : (i : K) / (((max maxM 1).toNat - 1 : ℕ) : K) ≤ 1 :=
      div_le_one_of_le₀ (by exact_mod_cast Nat.le_sub_one_of_lt inside) (Nat.cast_nonneg _)
    linarith

/-- The thresholds that the controller is meant to have. -/
structure Banded (f : AdaptiveFec K) : Prop where
  increasing : f.up.Pairwise (· < ·)
  below : List.Forall₂ (· < ·) f.down f.up

theorem exceedsAbove_of_raised (f : AdaptiveFec K) {loss : K}
    (rose : f.clamp f.currentM < (f.observe loss).currentM) : f.ExceedsAbove (f.smoothed loss) := by
  have bound : (f.floored (f.smoothed loss)).toNat ≤
      max (f.raise (f.smoothed loss) f.currentM).toNat f.minM.toNat := by
    cases isDown : f.down with
    | nil =>
        rw [floored_nil isDown]
        exact f.lower_le _ _
    | cons lowest rest =>
        rw [floored_cons isDown]
        split
        · exact Nat.le_max_right _ _
        · exact f.lower_le _ _
  rw [observe_currentM, UInt8.lt_iff_toNat_lt, toNat_clamp, toNat_clamp] at rose
  rcases f.raise_cases (f.smoothed loss) f.currentM
    with ⟨still, -⟩ | ⟨i, ⟨⟨t, found, crossed⟩, -⟩, raised⟩
  · rw [still] at bound
    omega
  · rw [raised, UInt8.toNat_min] at bound
    have counted := level_le i
    exact ⟨i, t, by omega, found, crossed⟩

/-- One observation is steady exactly when it finds the current level within its band. -/
theorem steady_iff (banded : f.Banded) (loss : K) : f.Steady loss ↔ f.KeepsBand loss := by
  have matched : f.down.length = f.up.length := banded.below.length_eq
  have top_eq : f.top.toNat = min f.currentM.toNat f.maxM.toNat := UInt8.toNat_min _ _
  have falls : (f.observe loss).currentM < f.clamp f.currentM ↔
      f.minM < f.top ∧ (f.floored (f.smoothed loss)).toNat < f.top.toNat := by
    rw [observe_currentM, UInt8.lt_iff_toNat_lt, UInt8.lt_iff_toNat_lt, toNat_clamp, toNat_clamp]
    omega
  have steady : f.Steady loss ↔
    (f.minM < f.top → (f.floored (f.smoothed loss)).toNat < f.top.toNat → f.BelowDown
    (f.smoothed loss)) := by
    rw [Steady, falls]
    constructor
    · rintro ⟨lowered, -⟩ room low
      exact lowered ⟨room, low⟩
    · intro lowered
      exact ⟨fun ⟨room, low⟩ => lowered room low, f.exceedsAbove_of_raised⟩
  rw [steady, KeepsBand]
  refine forall_congr' fun room => ?_
  rw [floored_lt_iff matched (UInt8.lt_iff_toNat_lt.mp room) (Nat.le_of_eq top_eq)]
  simp only [lastCrossed_iff banded.increasing, UInt8.le_iff_toNat_le]
  constructor
  · intro lowered inside
    constructor
    · intro i t found crossed last
      refine Nat.le_of_not_lt fun low =>
        inside (lowered (.inl ⟨i, ⟨⟨t, found, crossed⟩, last⟩, low⟩))
    · intro i d found below
      constructor
      · intro lowest
        exact inside (lowered (.inr ⟨i, d, found, below, .inl lowest⟩))
      · exact Nat.le_of_not_lt fun low =>
          inside (lowered (.inr ⟨i, d, found, below, .inr low⟩))
  · intro keeps low
    by_contra inside
    obtain ⟨highest, lowest⟩ := keeps inside
    rcases low with ⟨i, ⟨⟨t, found, crossed⟩, last⟩, low⟩ | ⟨i, d, found, below,
      first | low⟩
    · exact absurd low (Nat.not_lt_of_le (highest i t found crossed last))
    · exact (lowest i d found below).1 first
    · exact absurd low (Nat.not_lt_of_le (lowest i d found below).2)

/-- The controller fed with one loss sample after another. -/
def observeStep (f : AdaptiveFec K) (loss : K) : Option (AdaptiveFec K) := some (f.observe loss)

theorem observeStep_banded (f : AdaptiveFec K) (loss : K) (f' : AdaptiveFec K)
    (stepped : f.observeStep loss = some f') (banded : f.Banded) : f'.Banded := by
  cases stepped
  exact ⟨banded.increasing, banded.below⟩

/-- A run of observations is steady exactly when each finds the level within its band. -/
theorem steady_along_iff (banded : f.Banded) (losses : List K) :
    Runs.Along observeStep Steady f losses ↔ Runs.Along observeStep KeepsBand f losses :=
  Runs.along_congr Banded observeStep_banded (fun _ loss banded => steady_iff banded loss)
    losses banded

theorem defaultForVpn_banded : (defaultForVpn : AdaptiveFec ℚ).Banded :=
  ⟨by simp [defaultForVpn]; norm_num, by simp [defaultForVpn]; norm_num⟩

/-- A clean link is steady under the default controller. -/
theorem clean_link_steady :
    Runs.Along observeStep KeepsBand (defaultForVpn : AdaptiveFec ℚ) [0, 0] ∧
      Runs.Along observeStep Steady (defaultForVpn : AdaptiveFec ℚ) [0, 0] := by
  have keeps : Runs.Along observeStep KeepsBand (defaultForVpn : AdaptiveFec ℚ) [0, 0] := by
    refine Runs.along_cons.mpr ⟨fun _ inside => ?_, fun relaxed first => ?_⟩
    · exact absurd ⟨1, _, rfl, rfl, by decide +kernel⟩ inside
    · cases first
      refine Runs.along_cons.mpr ⟨fun room => ?_, fun _ _ => Runs.along_nil _ _⟩
      exact absurd room (by decide +kernel)
  exact ⟨keeps, (steady_along_iff defaultForVpn_banded [0, 0]).mpr keeps⟩

/-- With two parities, a loss within the band of the second level, but above the first
    `up` threshold, drops to one. -/
theorem band_not_held :
    ¬ ∀ (f : AdaptiveFec ℚ) (losses : List ℚ),
    f.Banded → Runs.Along observeStep Steady f losses := by
  intro held
  have steady := held defaultForVpn [2 / 5] defaultForVpn_banded [] (2 / 5) [] defaultForVpn rfl rfl
  obtain ⟨i, d, first, found, below⟩ := steady.1 (by decide +kernel)
  have second : i = 1 := Nat.succ.inj first.symm
  subst second
  cases found
  revert below
  decide +kernel

end Rustnies.AdaptiveFec
