import Mathlib.Algebra.Order.Field.Basic
import Mathlib.Data.Nat.Cast.Order.Field

/-! # The adaptive redundancy controller

`fec/adaptive.rs`: the number of parity symbols follows the smoothed loss through
two rows of thresholds. Ratios are taken in an exact ordered field where the code
uses `f64`.
-/

namespace Rustnies

structure FecParams where
  k : UInt8
  m : UInt8
  deriving Repr, DecidableEq

structure AdaptiveFec (K : Type) where
  k : UInt8
  minM : UInt8
  maxM : UInt8
  up : List K
  down : List K
  currentM : UInt8
  smoothedLoss : K
  emaAlpha : K

namespace AdaptiveFec

variable {K : Type} [Field K] [LinearOrder K]

def defaultForVpn : AdaptiveFec K :=
  let up : List K := [5 / 100, 12 / 100, 22 / 100, 35 / 100]
  { k := 1
    minM := 0
    maxM := 4
    up := up
    down := up.map (· * (6 / 10))
    currentM := 2
    smoothedLoss := 0
    emaAlpha := 25 / 100 }

/-- Thresholds spread from 0.03 to 0.89 over `max_m` bands. -/
def withParams (k minM maxM initialM : UInt8) (emaAlpha : K) : AdaptiveFec K :=
  let nBands := (max maxM 1).toNat
  let up : List K := (List.range nBands).map fun (i : Nat) =>
    if nBands ≤ 1 then 3 / 100
    else 3 / 100 + (89 / 100 - 3 / 100) * ((i : K) / ((nBands - 1 : Nat) : K))
  { k := k
    minM := minM
    maxM := maxM
    up := up
    down := up.map (· * (7 / 10))
    currentM := initialM
    smoothedLoss := 0
    emaAlpha := emaAlpha }

def params (f : AdaptiveFec K) : FecParams where
  k := min f.k (255 - f.currentM)
  m := f.currentM

/-- The rising loop: the highest band whose `up` threshold is crossed. -/
def raise (f : AdaptiveFec K) (s : K) (currentM : UInt8) : UInt8 :=
  f.up.zipIdx.foldl (fun cur (t, i) => if t < s then min (UInt8.ofNat (i + 1)) f.maxM else cur)
    currentM

/-- The falling loop, from the top band down. -/
def lower (f : AdaptiveFec K) (s : K) (currentM : UInt8) : UInt8 :=
  (List.range f.up.length).reverse.foldl
    (fun cur i =>
      let bandM := UInt8.ofNat (i + 1)
      if bandM < cur ∧ s < f.down.getD i 0 then max bandM f.minM else cur)
    currentM

def observe (f : AdaptiveFec K) (loss : K) : AdaptiveFec K :=
  let s := f.smoothedLoss * (1 - f.emaAlpha) + loss * f.emaAlpha
  let banded := f.lower s (f.raise s f.currentM)
  let floored := match f.down with
    | [] => banded
    | lowest :: _ => if s < lowest then f.minM else banded
  let capped := if f.maxM < floored then f.maxM else floored
  { f with smoothedLoss := s, currentM := if capped < f.minM then f.minM else capped }

def observeUnrecoverable (f : AdaptiveFec K) (lost total : Nat) : AdaptiveFec K :=
  if total = 0 then f else f.observe (max 0 (min ((lost : K) / (total : K)) 1))

end AdaptiveFec

end Rustnies
