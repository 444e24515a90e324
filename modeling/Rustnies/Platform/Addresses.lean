import Rustnies.Carrier
import Rustnies.Lib.Subnet
import Rustnies.Server.State
import Mathlib.Data.List.TakeWhile
import Mathlib.Data.Set.Image

/-! # Addresses and networks as texts

Parsing and printing of addresses is the standard library's, that of networks is
`ipnet`'s. Both are parameters here; what the code relies on is named. A small set of
texts, with a notation by bits for all other addresses, is one instance.
-/

namespace Rustnies

open Subnet

/-- The addresses of a network. -/
def IpNet.addresses : IpNet → Set IpAddr
  | .v4 addr prefixLen => Set.image IpAddr.v4 (covers addr prefixLen)
  | .v6 addr prefixLen => Set.image IpAddr.v6 (covers addr prefixLen)

/-- `parse` and `to_string` of the address types, `parse` and `network` of `IpNet`. -/
structure AddressTexts where
  parseV4 : String → Option (BitVec 32)
  showV4 : BitVec 32 → String
  parseV6 : String → Option (BitVec 128)
  showV6 : BitVec 128 → String
  parseNet : String → Option IpNet
  networkV4 : BitVec 32 → Nat → BitVec 32

/-- `format!("{}/{}", base, prefix)`. -/
def cidrText (base : String) (prefixLen : Nat) : String := base ++ "/" ++ toString prefixLen

namespace AddressTexts

/-- `IpAddr::from_str`: either family. -/
def parseIp (texts : AddressTexts) (text : String) : Option IpAddr :=
  match texts.parseV4 text with
  | some ip => some (.v4 ip)
  | none => (texts.parseV6 text).map .v6

/-- An address is read back from its text, a network from an address, a slash and a prefix
    length within bounds; the base of a network keeps the prefix and clears the rest. -/
structure Faithful (texts : AddressTexts) : Prop where
  shownV4 : ∀ ip, texts.parseV4 (texts.showV4 ip) = some ip
  shownV6 : ∀ ip, texts.parseV6 (texts.showV6 ip) = some ip
  netV4 : ∀ base ip p, texts.parseV4 base = some ip → p ≤ 32 →
    texts.parseNet (cidrText base p) = some (.v4 ip p)
  netV6 : ∀ base ip p, texts.parseV6 base = some ip → p ≤ 128 →
    texts.parseNet (cidrText base p) = some (.v6 ip p)
  network : ∀ ip p i, p ≤ 32 → (texts.networkV4 ip p).getMsbD i =
    (decide (i < p) && ip.getMsbD i)

/-! ## An instance -/

variable {w : Nat}

/-- An address by its bits, the lowest first. -/
def bits (b : BitVec w) : List Char := (List.range w).map fun i => if b.getLsbD i then '1' else '0'

def ofBits (w : Nat) (cs : List Char) : Option (BitVec w) :=
  if cs.length = w ∧ cs.all (fun c => c == '0' || c == '1') then
    some ((BitVec.ofBoolListLE (cs.map (· == '1'))).setWidth w)
  else none

theorem bits_length (b : BitVec w) : (bits b).length = w := by
  rw [bits, List.length_map, List.length_range]

theorem ofBits_bits (b : BitVec w) : ofBits w (bits b) = some b := by
  have digits : (bits b).all (fun c => c == '0' || c == '1') = true := by
    rw [List.all_eq_true]
    intro c inside
    obtain ⟨i, _, rfl⟩ := List.mem_map.mp inside
    cases b.getLsbD i with
    | false => rfl
    | true => rfl
  rw [ofBits, if_pos ⟨bits_length b, digits⟩, Option.some.injEq]
  apply BitVec.eq_of_getLsbD_eq
  intro i inside
  rw [BitVec.getLsbD_setWidth, BitVec.getLsbD_ofBoolListLE]
  cases bit : b.getLsbD i <;> simp_all [bits]

/-- The texts and addresses of a table, and bits for the rest. -/
def tableShow (table : List (String × BitVec w)) (b : BitVec w) : String :=
  match table.find? fun e => e.2 == b with
  | some e => e.1
  | none => String.ofList (bits b)

def tableParse (table : List (String × BitVec w)) (text : String) : Option (BitVec w) :=
  match table.find? fun e => e.1 == text with
  | some e => some e.2
  | none => ofBits w text.toList

theorem tableParse_show {table : List (String × BitVec w)} (distinct : (table.map Prod.fst).Nodup)
    (short : ∀ e ∈ table, e.1.toList.length ≠ w) (b : BitVec w) :
    tableParse table (tableShow table b) = some b := by
  unfold tableShow
  cases found : table.find? fun e => e.2 == b with
  | none =>
      have absent : table.find? (fun e => e.1 == String.ofList (bits b)) = none := by
        rw [List.find?_eq_none]
        intro e inside same
        apply short e inside
        rw [eq_of_beq same, String.toList_ofList, bits_length]
      rw [tableParse, absent]
      simp only [String.toList_ofList, ofBits_bits]
  | some e =>
      have inside := List.mem_of_find?_eq_some found
      have address : e.2 = b := by
        simpa using List.find?_some found
      cases back : table.find? fun e' => e'.1 == e.1 with
      | none =>
          have refused := List.find?_eq_none.mp back e inside
          exact absurd (beq_self_eq_true e.1) refused
      | some e' =>
          have same : e'.1 = e.1 := by
            simpa using List.find?_some back
          have one : e' = e :=
            List.inj_on_of_nodup_map distinct (List.mem_of_find?_eq_some back) inside same
          simp only [tableParse, back, one, address]

theorem text_of_tableParse {table : List (String × BitVec w)} {text : String} {b : BitVec w}
    (parsed : tableParse table text = some b) :
    text ∈ table.map Prod.fst ∨ text.toList.length = w ∧ ∀ c ∈ text.toList, c = '0' ∨
    c = '1' := by
  unfold tableParse at parsed
  cases found : table.find? fun e => e.1 == text with
  | some e =>
      have same : e.1 = text := by
        simpa using List.find?_some found
      exact .inl (same ▸ List.mem_map_of_mem (List.mem_of_find?_eq_some found))
  | none =>
      simp only [found, ofBits] at parsed
      split at parsed
      · rename_i written
        have digits := List.all_eq_true.mp written.2
        simp only [Bool.or_eq_true, beq_iff_eq] at digits
        exact .inr ⟨written.1, digits⟩
      · cases parsed

def sampleV4 : List (String × BitVec 32) :=
  [("10.7.0.1", 0x0a070001), ("10.7.0.0", 0x0a070000), ("10.0.0.0", 0x0a000000),
    ("178.66.83.0", 0xb2425300), ("255.255.255.0", 0xffffff00), ("255.0.255.0", 0xff00ff00)]

def sampleV6 : List (String × BitVec 128) :=
  [("fd00::", 0xfd000000000000000000000000000000), ("fd00::1", 0xfd000000000000000000000000000001),
    ("fd00::1234:0:0:1", 0xfd000000000000001234000000000001)]

/-- A network: the text before the first slash, and a number after it. -/
def sampleNet (text : String) : Option IpNet :=
  let base := String.ofList (text.toList.takeWhile (· ≠ '/'))
  let digits := (text.toList.dropWhile (· ≠ '/')).tail
  let prefixLen := Nat.ofDigitChars 10 digits 0
  if digits.isEmpty || !digits.all Char.isDigit then none
  else
    match tableParse sampleV4 base with
    | some ip => if prefixLen ≤ 32 then some (.v4 ip prefixLen) else none
    | none =>
        match tableParse sampleV6 base with
        | some ip => if prefixLen ≤ 128 then some (.v6 ip prefixLen) else none
        | none => none

def sample : AddressTexts where
  parseV4 := tableParse sampleV4
  showV4 := tableShow sampleV4
  parseV6 := tableParse sampleV6
  showV6 := tableShow sampleV6
  parseNet := sampleNet
  networkV4 ip p := ip &&& mask 32 p

theorem sample_slash {text : String} {ip : IpAddr} (parsed : sample.parseIp text = some ip) :
    '/' ∉ text.toList := by
  have bare : ∀ {w : Nat}, (text.toList.length = w ∧ ∀ c ∈ text.toList, c = '0' ∨
    c = '1') → '/' ∉ text.toList := by
    intro w written inside
    rcases written.2 _ inside with slash | slash <;> cases slash
  have known : ∀ t ∈ sampleV4.map Prod.fst ++ sampleV6.map Prod.fst, '/' ∉ t.toList := by
    decide
  unfold parseIp at parsed
  split at parsed
  · rename_i four
    rcases text_of_tableParse four with listed | written
    · exact known text (List.mem_append_left _ listed)
    · exact bare written
  · obtain ⟨b, six, _⟩ := Option.map_eq_some_iff.mp parsed
    rcases text_of_tableParse six with listed | written
    · exact known text (List.mem_append_right _ listed)
    · exact bare written

theorem sample_parseV4_of_parseV6 {text : String} {b : BitVec 128}
    (parsed : sample.parseV6 text = some b) :
    sample.parseV4 text = none := by
  have apart : ∀ t ∈ sampleV6.map Prod.fst, t ∉ sampleV4.map Prod.fst ∧
    t.toList.length < 32 := by
    decide
  have short : ∀ t ∈ sampleV4.map Prod.fst, t.toList.length < 32 := by
    decide
  cases four : sample.parseV4 text with
  | none => rfl
  | some ip =>
      rcases text_of_tableParse parsed with listed | written <;>
        rcases text_of_tableParse four with listed' | written'
      · exact absurd listed' (apart text listed).1
      · have := (apart text listed).2
        omega
      · have := short text listed'
        omega
      · omega

theorem sample_split {base : String} (bare : '/' ∉ base.toList) (p : Nat) :
    (cidrText base p).toList.takeWhile (· ≠ '/') = base.toList ∧
      ((cidrText base p).toList.dropWhile (· ≠ '/')).tail = Nat.toDigits 10 p := by
  have kept : ∀ c ∈ base.toList, decide (c ≠ '/') = true := fun c inside =>
    decide_eq_true fun slash => bare (slash ▸ inside)
  have whole : (cidrText base p).toList = base.toList ++ '/' :: Nat.toDigits 10 p := by
    simp [cidrText]
  rw [whole, List.takeWhile_append_of_pos kept, List.dropWhile_append_of_pos kept]
  simp

theorem sampleNet_cidrText {base : String} (bare : '/' ∉ base.toList) (p : Nat) :
    sampleNet (cidrText base p) =
      match tableParse sampleV4 base with
      | some ip => if p ≤ 32 then some (.v4 ip p) else none
      | none =>
          match tableParse sampleV6 base with
          | some ip => if p ≤ 128 then some (.v6 ip p) else none
          | none => none := by
  obtain ⟨before, after⟩ := sample_split bare p
  have nonempty : (Nat.toDigits 10 p).isEmpty = false :=
    List.isEmpty_eq_false_iff.mpr Nat.toDigits_ne_nil
  have decimal : (Nat.toDigits 10 p).all Char.isDigit = true :=
    List.all_eq_true.mpr fun c inside => Nat.isDigit_of_mem_toDigits (by decide) (by decide) inside
  have digits : ¬ ((Nat.toDigits 10 p).isEmpty || !(Nat.toDigits 10 p).all Char.isDigit) =
    true := by
    rw [nonempty, decimal]
    decide
  simp only [sampleNet, before, after, String.ofList_toList, if_neg digits,
    Nat.ofDigitChars_ten_toDigits]

theorem sample_faithful : sample.Faithful where
  shownV4 := tableParse_show (by decide) (by decide)
  shownV6 := tableParse_show (by decide) (by decide)
  netV4 := by
    intro base ip p parsed inside
    have bare : '/' ∉ base.toList := sample_slash (by rw [parseIp, parsed])
    have read : tableParse sampleV4 base = some ip := parsed
    exact (sampleNet_cidrText bare p).trans (by rw [read]; exact if_pos inside)
  netV6 := by
    intro base ip p parsed inside
    have four := sample_parseV4_of_parseV6 parsed
    have bare : '/' ∉ base.toList := sample_slash (by rw [parseIp, four, parsed]; rfl)
    have read : tableParse sampleV6 base = some ip := parsed
    have none : tableParse sampleV4 base = none := four
    exact (sampleNet_cidrText bare p).trans (by rw [none, read]; exact if_pos inside)
  network := by
    intro ip p i inside
    simp only [sample, BitVec.getMsbD_and, getMsbD_mask inside, Bool.and_comm]

end AddressTexts

end Rustnies
