import Rustnies.Bytes
import Rustnies.Fec.ReedSolomonLaws

/-! # Erasure-code schemes

`fec/mod.rs`: the code a session negotiated. `reedSolomon` builds the code of the
given size for every call; `noFec` refuses.
-/

namespace Rustnies

def FEC_REED_SOLOMON : UInt8 := 1
def FEC_NONE_ID : UInt8 := 2

inductive FecScheme where
  | reedSolomon
  | noFec
  deriving Repr, DecidableEq

namespace FecScheme

def id : FecScheme → UInt8
  | .reedSolomon => FEC_REED_SOLOMON
  | .noFec => FEC_NONE_ID

def fromId (id : UInt8) : Option FecScheme :=
  if id = FEC_REED_SOLOMON then some .reedSolomon
  else if id = FEC_NONE_ID then some .noFec
  else none

def active : FecScheme → Bool
  | .reedSolomon => true
  | .noFec => false

/-- The bytes of a packet as field elements. -/
def toSymbol (bs : Bytes) : Symbol := bs.map Gf256.mk

def ofSymbol (s : Symbol) : Bytes := s.map Gf256.byte

def encode (scheme : FecScheme) (k m : Nat) (sources : List Bytes) : Except FecError (List Bytes) :=
  match scheme with
  | .reedSolomon => (ReedSolomon.new k m).bind fun rs =>
      (rs.encode (sources.map toSymbol)).map (·.map ofSymbol)
  | .noFec => .error .inactive

def decode (scheme : FecScheme) (k m : Nat) (symbols : List (Option Bytes)) :
    Except FecError (List Bytes) :=
  match scheme with
  | .reedSolomon => (ReedSolomon.new k m).bind fun rs =>
      (rs.decode (symbols.map (·.map toSymbol))).map (·.map ofSymbol)
  | .noFec => .error .inactive

@[simp]
theorem ofSymbol_toSymbol (bs : Bytes) : ofSymbol (toSymbol bs) = bs := by
  simp only [ofSymbol, toSymbol, List.map_map]
  exact List.map_id bs

@[simp]
theorem toSymbol_length (bs : Bytes) : (toSymbol bs).length = bs.length := List.length_map _

@[simp]
theorem ofSymbol_length (s : Symbol) : (ofSymbol s).length = s.length := List.length_map _

@[simp]
theorem toSymbol_ofSymbol (s : Symbol) : toSymbol (ofSymbol s) = s := by
  simp only [ofSymbol, toSymbol, List.map_map]
  exact List.map_id s

theorem decode_length {scheme : FecScheme} {k m : Nat} {symbols : List (Option Bytes)}
    {recovered : List Bytes} (decoded : scheme.decode k m symbols = .ok recovered) :
    recovered.length = k := by
  cases scheme with
  | noFec => cases decoded
  | reedSolomon =>
      simp only [decode] at decoded
      cases made : ReedSolomon.new k m with
      | error e => simp [made, Except.bind] at decoded
      | ok rs =>
          simp only [made, Except.bind] at decoded
          cases inner : rs.decode (symbols.map (·.map toSymbol)) with
          | error e => simp [inner, Except.map] at decoded
          | ok sources =>
              simp only [inner, Except.map, Except.ok.injEq] at decoded
              rw [← decoded, List.length_map, ReedSolomon.decode_length inner,
                (ReedSolomon.valid_of_new made).1]

theorem decode_valid {scheme : FecScheme} {k m : Nat} {symbols : List (Option Bytes)}
    {recovered : List Bytes} (decoded : scheme.decode k m symbols = .ok recovered) :
    scheme = .reedSolomon ∧ 1 ≤ k ∧ k + m ≤ 255 := by
  cases scheme with
  | noFec => cases decoded
  | reedSolomon =>
      simp only [decode] at decoded
      cases made : ReedSolomon.new k m with
      | error e => simp [made, Except.bind] at decoded
      | ok rs =>
          obtain ⟨-, positive, small⟩ := ReedSolomon.valid_of_new made
          exact ⟨rfl, positive, small⟩

theorem decode_equal_lengths {scheme : FecScheme} {k m : Nat} {symbols : List (Option Bytes)}
    {recovered : List Bytes} (decoded : scheme.decode k m symbols = .ok recovered) :
    ∃ len, ∀ s, some s ∈ symbols → s.length = len := by
  cases scheme with
  | noFec => cases decoded
  | reedSolomon =>
      simp only [decode] at decoded
      cases made : ReedSolomon.new k m with
      | error e => simp [made, Except.bind] at decoded
      | ok rs =>
          simp only [made, Except.bind] at decoded
          cases inner : rs.decode (symbols.map (·.map toSymbol)) with
          | error e => simp [inner, Except.map] at decoded
          | ok sources =>
              obtain ⟨len, equal⟩ := ReedSolomon.decode_equal_lengths inner
              refine ⟨len, fun s member => ?_⟩
              rw [← toSymbol_length s]
              exact equal _ (List.mem_map.mpr ⟨some s, member, rfl⟩)

theorem encode_valid {scheme : FecScheme} {k m : Nat} {sources parities : List Bytes}
    (encoded : scheme.encode k m sources = .ok parities) :
    scheme = .reedSolomon ∧ 1 ≤ k ∧ k + m ≤ 255 ∧ sources.length = k := by
  cases scheme with
  | noFec => cases encoded
  | reedSolomon =>
      simp only [encode] at encoded
      cases made : ReedSolomon.new k m with
      | error e => simp [made, Except.bind] at encoded
      | ok rs =>
          simp only [made, Except.bind] at encoded
          obtain ⟨size, positive, small⟩ := ReedSolomon.valid_of_new made
          cases inner : rs.encode (sources.map toSymbol) with
          | error e => simp [inner, Except.map] at encoded
          | ok symbols =>
              have count := ReedSolomon.encode_size inner
              rw [List.length_map, size] at count
              exact ⟨rfl, positive, small, count⟩

/-! ## Groups of equal-length packets -/

section Group

variable {k m len : Nat} {sources : Fin k → Bytes}

/-- The parity packets of a group. -/
noncomputable def parity (m len : Nat) (sources : Fin k → Bytes) (i : Fin m) : Bytes :=
  ofSymbol ((ReedSolomon.code k m).parity len (fun j => toSymbol (sources j)) i)

@[simp]
theorem parity_length (i : Fin m) : (parity m len sources i).length = len :=
  (ofSymbol_length _).trans (ReedSolomon.parity_length ..)

theorem parity_congr {m' : Nat} (len : Nat) (sources : Fin k → Bytes) {i : Fin m} {i' : Fin m'}
    (same : i.val = i'.val) : parity m len sources i = parity m' len sources i' := by
  obtain ⟨i, inside⟩ := i
  obtain rfl : i = i'.val := same
  rfl

variable (positive : 1 ≤ k) (small : k + m ≤ 255) (equal : ∀ j, (sources j).length = len)

include positive small equal in
theorem encode_reedSolomon :
    encode .reedSolomon k m (List.ofFn sources) = .ok (List.ofFn (parity m len sources)) := by
  have encoded : (ReedSolomon.code k m).encode (List.ofFn fun j => toSymbol (sources j)) =
      .ok (List.ofFn ((ReedSolomon.code k m).parity len fun j => toSymbol (sources j))) :=
    ReedSolomon.encode_eq positive fun j => (toSymbol_length _).trans (equal j)
  have mapped : (List.ofFn sources).map toSymbol = List.ofFn fun j => toSymbol (sources j) :=
    List.map_ofFn ..
  simp only [encode, ReedSolomon.new_eq positive small, Except.bind, mapped]
  have applied := congrArg (Except.map (List.map ofSymbol)) encoded
  refine applied.trans ?_
  simp only [Except.map, List.map_ofFn]
  rfl

include positive small equal in
theorem decode_reedSolomon {symbols : List (Option Bytes)} (size : symbols.length = k + m)
    (data : ∀ j : Fin k, symbols.getD j none = none ∨ symbols.getD j none = some (sources j))
    (rest : ∀ i : Fin m, symbols.getD (k + i) none = none ∨
      symbols.getD (k + i) none = some (parity m len sources i))
    (enough : k ≤ symbols.countP Option.isSome) :
    decode .reedSolomon k m symbols = .ok (List.ofFn sources) := by
  have slot : ∀ n, (symbols.map (·.map toSymbol)).getD n none =
    (symbols.getD n none).map toSymbol := by
    intro n
    simp only [List.getD_eq_getElem?_getD, List.getElem?_map]
    cases symbols[n]? <;> rfl
  have decoded : (ReedSolomon.code k m).decode (symbols.map (·.map toSymbol)) =
      .ok (List.ofFn fun j => toSymbol (sources j)) := ReedSolomon.decode_eq
    (ReedSolomon.code_mds small)
    (by rw [List.length_map]; exact size)
    (fun j => (toSymbol_length _).trans (equal j))
    (fun j => by
      rw [slot]
      rcases data j with absent | present
      · exact .inl (by rw [absent, Option.map_none])
      · exact .inr (by rw [present, Option.map_some]))
    (fun i => by
      rw [slot]
      rcases rest i with absent | present
      · exact .inl (Option.map_eq_none_iff.mpr absent)
      · refine .inr (Option.map_eq_some_iff.mpr ⟨_, present, ?_⟩)
        rw [parity, toSymbol_ofSymbol])
    (by
      have same : (symbols.map (·.map toSymbol)).countP Option.isSome =
        symbols.countP Option.isSome := by
        rw [List.countP_map]
        exact List.countP_congr fun s _ => by simp
      rw [same]
      exact enough)
    positive
  simp only [decode, ReedSolomon.new_eq positive small, Except.bind]
  refine (congrArg (Except.map (List.map ofSymbol)) decoded).trans ?_
  simp only [Except.map, List.map_ofFn, Function.comp_def, ofSymbol_toSymbol]

end Group

end FecScheme

end Rustnies
