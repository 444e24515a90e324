import Rustnies.Lib.WordInt
import Rustnies.TcpReno

/-! # The round-trip estimator over the integers

`on_rtt_sample` smooths in `i64`. Its values are followed here over the integers: while
they all fit the word, the estimator is the smoothing, and it stays under the largest
round trip that it was told. The sum `7 * srtt + rtt` is the first to leave the word.
-/

namespace Rustnies

open WordInt

/-- `SRTT` and `RTTVAR` after a sample, over the integers. -/
def smoothedRtt (srtt rtt : Nat) : Int := (7 * (srtt : Int) + rtt).tdiv 8

def smoothedVar (srtt rttvar rtt : Nat) : Int := (3 * (rttvar : Int) + |(srtt : Int) - rtt|).tdiv 4

/-- What the estimator reads and what it computes, in the order of its steps. -/
def rttTerms (srtt rttvar rtt : Nat) : List Int :=
  let r : Int := rtt
  let s : Int := srtt
  let v : Int := rttvar
  let newV := smoothedVar srtt rttvar rtt
  let newS := smoothedRtt srtt rtt
  [r, s, v, s - r, |s - r|, 3 * v, 3 * v + |s - r|, newV, 7 * s, 7 * s + r, newS, 4 * newV,
    newS + 4 * newV, newS + 1000000]

/-- No step of the estimator overflows. -/
def RttFits (srtt rttvar rtt : Nat) : Prop := ∀ x ∈ rttTerms srtt rttvar rtt, Fits x

instance (srtt rttvar rtt : Nat) : Decidable (RttFits srtt rttvar rtt) :=
  inferInstanceAs (Decidable (∀ x ∈ rttTerms srtt rttvar rtt, Fits x))

theorem not_fits_of_sum {srtt rttvar rtt : Nat} (large : 2 ^ 63 ≤ 7 * srtt + rtt) :
    ¬ RttFits srtt rttvar rtt := by
  intro fits
  have sum : Fits (7 * (srtt : Int) + rtt) := fits _ (by simp [rttTerms])
  have high := sum.2
  omega

/-- What the estimator keeps while no round trip is above the limit. -/
structure RttWithin (limit srtt rttvar rto : Nat) : Prop where
  positive : 1000 ≤ srtt
  below : srtt + 7 ≤ limit
  belowVar : rttvar ≤ limit
  aboveSrtt : srtt ≤ rto
  aboveFloor : 1000000 ≤ rto

namespace RttWithin

variable {limit srtt rttvar rto rtt : Nat}

theorem gap_le (within : RttWithin limit srtt rttvar rto) (short : rtt ≤ limit) :
    |(srtt : Int) - rtt| ≤ limit := by
  have below := within.below
  exact abs_le.mpr ⟨by omega, by omega⟩

/-- The average of values under the limit is under the limit; the truncation keeps `SRTT`
    seven away from it. -/
theorem smoothedRtt_bounds (within : RttWithin limit srtt rttvar rto) (short : rtt ≤ limit) :
    0 ≤ smoothedRtt srtt rtt ∧ smoothedRtt srtt rtt + 7 ≤ limit := by
  have below := within.below
  rw [smoothedRtt, Int.tdiv_eq_ediv_of_nonneg (by omega)]
  omega

theorem smoothedVar_bounds (within : RttWithin limit srtt rttvar rto) (short : rtt ≤ limit) :
    0 ≤ smoothedVar srtt rttvar rtt ∧ smoothedVar srtt rttvar rtt ≤ limit := by
  have below := within.belowVar
  have gap := within.gap_le short
  have nonneg := abs_nonneg ((srtt : Int) - rtt)
  rw [smoothedVar, Int.tdiv_eq_ediv_of_nonneg (by omega)]
  omega

theorem fits (within : RttWithin limit srtt rttvar rto) (short : rtt ≤ limit)
    (room : 8 * limit < 2 ^ 63 + 49) :
    RttFits srtt rttvar rtt := by
  have below := within.below
  have belowVar := within.belowVar
  have gap := within.gap_le short
  have nonneg := abs_nonneg ((srtt : Int) - rtt)
  obtain ⟨lowRtt, highRtt⟩ := within.smoothedRtt_bounds short
  obtain ⟨lowVar, highVar⟩ := within.smoothedVar_bounds short
  simp only [RttFits, rttTerms, List.forall_mem_cons, List.not_mem_nil, false_imp_iff, implies_true,
    and_true, Fits]
  omega

end RttWithin

namespace CongestionController

variable {F : Type} (f64 : Floating F) {c : CongestionController F} {rtt limit : Nat}

/-- Without an overflow the estimator is the smoothing over the integers. -/
theorem onRttSample_of_fits (fits : RttFits c.srtt c.rttvar rtt) :
    ((c.onRttSample f64 rtt).srtt : Int) = max (smoothedRtt c.srtt rtt) 1000 ∧
    ((c.onRttSample f64 rtt).rttvar : Int) = max (smoothedVar c.srtt c.rttvar rtt) 1000 ∧
    ((c.onRttSample f64 rtt).rto : Int) = max (max
      (smoothedRtt c.srtt rtt + 4 * smoothedVar c.srtt c.rttvar rtt)
      (smoothedRtt c.srtt rtt + 1000000)) 1000000 := by
  simp only [RttFits, rttTerms, List.forall_mem_cons, List.not_mem_nil, false_imp_iff, implies_true,
    and_true] at fits
  obtain ⟨r, s, v, gap, diff, threeV, sumV, -, sevenS, sumS, -, fourV, rto, floor⟩ := fits
  have r := ofNat_eq r
  have s := ofNat_eq s
  have v := ofNat_eq v
  have three : (3 : Int64).toInt = 3 := by decide
  have four : (4 : Int64).toInt = 4 := by decide
  have seven : (7 : Int64).toInt = 7 := by decide
  have eight : (8 : Int64).toInt = 8 := by decide
  have micro : (1000 : Int64).toInt = 1000 := by decide
  have milli : (1000000 : Int64).toInt = 1000000 := by decide
  have diff := abs_eq (sub_eq s r gap) diff
  have newV := div_eq (add_eq (mul_eq three v threeV) diff sumV) four (by decide)
  have newS := div_eq (add_eq (mul_eq seven s sevenS) r sumS) eight (by decide)
  change _ = smoothedVar c.srtt c.rttvar rtt at newV
  change _ = smoothedRtt c.srtt rtt at newS
  have rto := max_eq (add_eq newS (mul_eq four newV fourV) rto) (add_eq newS milli floor)
  simp only [onRttSample, recomputePacingRate]
  refine ⟨?_, ?_, ?_⟩
  · exact toUInt64_eq (max_eq newS micro) (by omega)
  · exact toUInt64_eq (max_eq newV micro) (by omega)
  · exact toUInt64_eq (max_eq rto milli) (by omega)

/-- The estimator's part of the state is within the limit. -/
def RttBounded (limit : Nat) (c : CongestionController F) : Prop :=
  RttWithin limit c.srtt c.rttvar c.rto

theorem RttBounded.onRttSample (bounded : c.RttBounded limit) (short : rtt ≤ limit)
    (room : 8 * limit < 2 ^ 63 + 49) (wide : 1007 ≤ limit) :
    (c.onRttSample f64 rtt).RttBounded limit := by
  obtain ⟨srtt, rttvar, rto⟩ := onRttSample_of_fits f64 (bounded.fits short room)
  obtain ⟨lowRtt, highRtt⟩ := bounded.smoothedRtt_bounds short
  obtain ⟨lowVar, highVar⟩ := bounded.smoothedVar_bounds short
  constructor
  · omega
  · omega
  · omega
  · omega
  · omega

end CongestionController

end Rustnies
