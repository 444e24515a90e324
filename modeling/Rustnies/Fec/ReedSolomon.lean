import Rustnies.Fec.Gf256
import Rustnies.Lib.SystematicCode

/-! # The Reed–Solomon code

`fec/reed_solomon.rs`: the systematic generator from a Vandermonde matrix, the
parity symbols of `k` equal-length sources, and the recovery of erased sources
from surviving parity by solving one linear system per byte. Loops that skip a
zero coefficient add zero here.
-/

namespace Rustnies

inductive FecError where
  | invalidParams (k m : Nat)
  | wrongSourceCount (expected got : Nat)
  | unequalLengths (first this : Nat)
  | wrongTotal (n got : Nat)
  | insufficient (have_ need : Nat)
  | singular
  | inactive
  deriving Repr, DecidableEq

abbrev Symbol := List Gf256

/-- The augmented rows `[a | b]` of a system. -/
def augment {n : Nat} (a : Fin n → Fin n → Gf256) (b : Fin n → Gf256) : List (List Gf256) :=
  List.ofFn fun r => List.ofFn (a r) ++ [b r]

/-- `alpha ^ e`, by repeated multiplication. -/
def exp2 (e : Nat) : Gf256 := (fun r => r * Gf256.alpha)^[e] 1

/-- Solve `a * x = e_col` for every column. -/
def invertMatrix {k : Nat} (a : Fin k → Fin k → Gf256) :
    Except FecError (Fin k → Fin k → Gf256) :=
  match (List.finRange k).mapM fun col =>
      solveSystem (augment a fun r => if r = col then 1 else 0) k with
  | .error _ => .error .singular
  | .ok columns => .ok fun r col => (columns.getD col []).getD r 0

structure ReedSolomon where
  k : Nat
  m : Nat
  /-- Rows `0..k` are the identity, rows `k..n` the parity rows. -/
  g : Fin (k + m) → Fin k → Gf256

namespace ReedSolomon

/-- `V[i][j] = alpha^(i*j)`. -/
def vandermonde (k m : Nat) (i : Fin (k + m)) (j : Fin k) : Gf256 := exp2 (i.val * j.val % 255)

def new (k m : Nat) : Except FecError ReedSolomon :=
  if k = 0 ∨ 255 < k + m then .error (.invalidParams k m)
  else
    (invertMatrix fun i j => vandermonde k m (Fin.castAdd m i) j).map fun inverse =>
      { k := k, m := m, g := fun i j => ∑ t, vandermonde k m i t * inverse t j }

/-- The first symbol whose length differs from `len`. -/
def firstUnequal (len : Nat) (symbols : List Symbol) : Option Nat :=
  (symbols.find? fun s => s.length ≠ len).map List.length

def encode (rs : ReedSolomon) (sources : List Symbol) : Except FecError (List Symbol) :=
  if sources.length ≠ rs.k then .error (.wrongSourceCount rs.k sources.length)
  else
    let len := (sources.getD 0 []).length
    match firstUnequal len sources with
    | some this => .error (.unequalLengths len this)
    | none => .ok <| (List.finRange rs.m).map fun i => (List.range len).map fun b =>
        ∑ j : Fin rs.k, rs.g (Fin.natAdd rs.k i) j * (sources.getD j []).getD b 0

/-- The systematic slots. -/
def recovered (rs : ReedSolomon) (symbols : List (Option Symbol)) (i : Fin rs.k) : Option Symbol :=
  symbols.getD i none

/-- The missing sources. -/
def erased (rs : ReedSolomon) (symbols : List (Option Symbol)) : List (Fin rs.k) :=
  (List.finRange rs.k).filter fun i => (rs.recovered symbols i).isNone

/-- What the known sources contribute to byte `b` of a parity row. -/
def knownSum (rs : ReedSolomon) (symbols : List (Option Symbol)) (i : Fin rs.m) (b : Nat) : Gf256 :=
  ∑ j, match rs.recovered symbols j with
    | some known => rs.g (Fin.natAdd rs.k i) j * known.getD b 0
    | none => 0

/-- One equation per surviving parity row: the coefficients of the missing sources,
    and the parity less the contribution of the known ones. -/
def eqRows (rs : ReedSolomon) (symbols : List (Option Symbol)) (len : Nat) :
    List (List Gf256 × Symbol) :=
  (List.finRange rs.m).filterMap fun i => (symbols.getD (rs.k + i.val) none).map fun sym =>
    ((rs.erased symbols).map (rs.g (Fin.natAdd rs.k i)),
      (List.range len).map fun b => sym.getD b 0 - rs.knownSum symbols i b)

/-- The system of byte `b`: the first equations, as many as there are unknowns. -/
def byteSystem (rs : ReedSolomon) (symbols : List (Option Symbol)) (len b : Nat) :
    List (List Gf256) :=
  ((rs.eqRows symbols len).take (rs.erased symbols).length).map fun e => e.1 ++ [e.2.getD b 0]

def decode (rs : ReedSolomon) (symbols : List (Option Symbol)) : Except FecError (List Symbol) :=
  if symbols.length ≠ rs.k + rs.m then .error (.wrongTotal (rs.k + rs.m) symbols.length)
  else
    match symbols.findSome? fun s => s.map List.length with
    | none => .error (.insufficient 0 rs.k)
    | some len =>
        match firstUnequal len (symbols.filterMap id) with
        | some this => .error (.unequalLengths len this)
        | none =>
            let erased := rs.erased symbols
            if erased.isEmpty then .ok (List.ofFn fun i => (rs.recovered symbols i).getD [])
            else if (rs.eqRows symbols len).length < erased.length then
              .error (.insufficient (rs.eqRows symbols len).length erased.length)
            else
              match (List.range len).mapM fun b =>
                  solveSystem (rs.byteSystem symbols len b) erased.length with
              | .error _ => .error .singular
              | .ok solutions => .ok <| List.ofFn fun j =>
                  (rs.recovered symbols j).getD <| (List.range len).map fun b =>
                    (solutions.getD b []).getD (erased.idxOf j) 0

end ReedSolomon

end Rustnies
