import Rustnies.Lib.Words
import Rustnies.Platform.Addresses
import Rustnies.Protocol.Profile

/-! # Route files

`parse_route_line` in `platform/linux.rs`. A line is an address, a network, or an IPv4
address and a netmask. The code looks at the first two words, then at the first alone, and
never at a third.
-/

namespace Rustnies

open Subnet Words

structure RouteDest where
  addr : IpAddr
  prefixLen : Nat
  deriving Repr, DecidableEq

namespace RouteDest

/-- The addresses a destination stands for. -/
def addresses (dest : RouteDest) : Set IpAddr :=
  match dest.addr with
  | .v4 ip => Set.image IpAddr.v4 (covers ip dest.prefixLen)
  | .v6 ip => Set.image IpAddr.v6 (covers ip dest.prefixLen)

def ofNet : IpNet → RouteDest
  | .v4 addr prefixLen => ⟨.v4 addr, prefixLen⟩
  | .v6 addr prefixLen => ⟨.v6 addr, prefixLen⟩

/-- A bare address is a host route. -/
def host : IpAddr → RouteDest
  | .v4 ip => ⟨.v4 ip, 32⟩
  | .v6 ip => ⟨.v6 ip, 128⟩

end RouteDest

/-- `bits.trailing_zeros()` zeros at the end, and ones before them. -/
def netmaskToPrefix (mask : BitVec 32) : Option Nat :=
  if mask = 0 then some 0
  else
    let zeros := mask.ctz.toNat
    if mask = BitVec.allOnes 32 <<< zeros then some (32 - zeros) else none

/-- `split_whitespace`. -/
def splitWhitespace (s : String) : List String := (words isWhitespace s.toList).map String.ofList

/-- Blank, or a comment. -/
def isSkipped (line : String) : Bool := line.toList.isEmpty || line.toList.head? == some '#'

/-- An IPv4 address and a netmask. -/
def parseMasked (texts : AddressTexts) (first second : String) : Option RouteDest :=
  match texts.parseV4 first, texts.parseV4 second with
  | some ip, some mask => (netmaskToPrefix mask).map fun prefixLen => ⟨.v4 ip, prefixLen⟩
  | _, _ => none

/-- A network or a bare address. -/
def parseSingle (texts : AddressTexts) (first : String) : Option RouteDest :=
  match texts.parseNet first with
  | some cidr => some (.ofNet cidr)
  | none => (texts.parseIp first).map .host

def parseRouteLine (texts : AddressTexts) (line : String) : Option RouteDest :=
  let line := trim line
  if isSkipped line then none
  else
    match splitWhitespace line with
    | [] => none
    | first :: parts =>
        match parts.head?.bind (parseMasked texts first) with
        | some dest => some dest
        | none => parseSingle texts first

/-! ## The netmask -/

/-- The prefix length of a mask is `p` exactly when the mask is `p` ones and then zeros. -/
theorem netmaskToPrefix_eq_some_iff {m : BitVec 32} {p : Nat} :
    netmaskToPrefix m = some p ↔ p ≤ 32 ∧ m = mask 32 p := by
  unfold netmaskToPrefix
  constructor
  · intro found
    split at found
    · rename_i zero
      cases found
      exact ⟨by decide, zero.trans mask_zero.symm⟩
    · rename_i nonzero
      have small : m.ctz.toNat < 32 := BitVec.ctz_lt_iff_ne_zero.mpr nonzero
      dsimp only at found
      split at found
      · rename_i contiguous
        cases found
        have zeros : 32 - (32 - m.ctz.toNat) = m.ctz.toNat := by omega
        exact ⟨Nat.sub_le _ _, by rw [mask, zeros]; exact contiguous⟩
      · cases found
  · rintro ⟨inside, rfl⟩
    rcases Nat.eq_zero_or_pos p with rfl | positive
    · have zero : mask 32 0 = 0 := mask_zero
      rw [if_pos zero]
    · have zeros := ctz_mask positive inside
      have nonzero : mask 32 p ≠ 0 := by
        intro zero
        have none := mask_injective inside (Nat.zero_le 32) (zero.trans mask_zero.symm)
        omega
      have shifted : mask 32 p = BitVec.allOnes 32 <<< (32 - p) := rfl
      simp only [if_neg nonzero, zeros, if_pos shifted]
      congr 1
      omega

theorem exists_prefix_iff {m : BitVec 32} :
    (∃ p, netmaskToPrefix m = some p) ↔ Contiguous m := by
  simp only [netmaskToPrefix_eq_some_iff, Contiguous]

/-! ## The forms of a line -/

/-- What `parse` of an address or a network does not accept: the empty text, whitespace, and
    an address where a network is asked for. -/
structure AddressTexts.Strict (texts : AddressTexts) : Prop where
  address : ∀ text ip, texts.parseIp text = some ip → IsWord isWhitespace text.toList
  network : ∀ text net, texts.parseNet text = some net → IsWord isWhitespace text.toList
  apart : ∀ text net, texts.parseNet text = some net → texts.parseIp text = none

/-- The documented forms, and the network each stands for. -/
inductive RouteForm (texts : AddressTexts) : String → Set IpAddr → Prop where
  | host {text : String} {ip : IpAddr} (address : texts.parseIp text = some ip) :
      RouteForm texts text {ip}
  | cidr {text : String} {net : IpNet} (network : texts.parseNet text = some net) :
      RouteForm texts text net.addresses
  | masked {first second : String} {gap : List Char} {ip m : BitVec 32}
      (address : texts.parseV4 first = some ip) (netmask : texts.parseV4 second = some m)
      (contiguous : Contiguous m) (between : IsGap isWhitespace gap) (apart : gap ≠ []) :
      RouteForm texts (first ++ String.ofList gap ++ second)
        (Set.image IpAddr.v4 {x | x &&& m = ip &&& m})

theorem covers_full {w : Nat} (a : BitVec w) : covers a w = {a} := by
  ext x
  exact ⟨fun shared => BitVec.eq_of_getMsbD_eq fun i inside => shared i inside,
    fun same _ _ => same ▸ rfl⟩

theorem addresses_ofNet (net : IpNet) : (RouteDest.ofNet net).addresses = net.addresses := by
  cases net <;> rfl

theorem addresses_host (ip : IpAddr) : (RouteDest.host ip).addresses = {ip} := by
  cases ip <;> simp [RouteDest.host, RouteDest.addresses, covers_full]

variable {texts : AddressTexts} {line first second : String} {parts : List String}

theorem parseMasked_eq_some {dest : RouteDest}
    (parsed : parseMasked texts first second = some dest) :
    ∃ ip m, texts.parseV4 first = some ip ∧ texts.parseV4 second = some m ∧ Contiguous m ∧
      dest.addresses = Set.image IpAddr.v4 {x | x &&& m = ip &&& m} := by
  unfold parseMasked at parsed
  split at parsed
  · rename_i ip m address netmask
    obtain ⟨p, length, rfl⟩ := Option.map_eq_some_iff.mp parsed
    obtain ⟨inside, rfl⟩ := netmaskToPrefix_eq_some_iff.mp length
    refine ⟨ip, mask 32 p, address, netmask, ⟨p, inside, rfl⟩, ?_⟩
    simp only [RouteDest.addresses, covers_eq_mask inside]
  · cases parsed

theorem parseMasked_isSome {ip m : BitVec 32} (address : texts.parseV4 first = some ip)
    (netmask : texts.parseV4 second = some m) (contiguous : Contiguous m) :
    ∃ dest, parseMasked texts first second = some dest := by
  obtain ⟨p, length⟩ := exists_prefix_iff.mpr contiguous
  simp [parseMasked, address, netmask, length]

theorem parseIp_of_parseV4 {ip : BitVec 32} (address : texts.parseV4 first = some ip) :
    texts.parseIp first = some (.v4 ip) := by
  rw [AddressTexts.parseIp, address]

/-! ## Lines by their words -/

theorem trimmed_line (line : String) : Trimmed isWhitespace (trim line).toList := by
  rw [trim, String.toList_ofList]
  exact trimmed_trim isWhitespace line.toList

theorem toList_word {s w : String} {ws : List String} (split : splitWhitespace s = w :: ws) :
    ∃ rest, words isWhitespace s.toList = w.toList :: rest ∧ rest.map String.ofList = ws := by
  obtain ⟨c, rest, found, rfl, more⟩ := List.map_eq_cons_iff.mp split
  exact ⟨rest, by rw [found, String.toList_ofList], more⟩

theorem eq_of_one_word (one : splitWhitespace (trim line) = [first]) :
    trim line = first ∧ IsWord isWhitespace first.toList := by
  obtain ⟨rest, split, none⟩ := toList_word one
  rw [List.map_eq_nil_iff.mp none] at split
  obtain ⟨same, word⟩ := (words_eq_singleton_iff (trimmed_line line)).mp split
  exact ⟨String.toList_inj.mp same, word⟩

theorem eq_of_two_words (two : splitWhitespace (trim line) = [first, second]) :
    ∃ gap, IsGap isWhitespace gap ∧ gap ≠ [] ∧
    trim line = first ++ String.ofList gap ++ second := by
  obtain ⟨rest, split, last⟩ := toList_word two
  obtain ⟨w, others, rfl, rfl, none⟩ := List.map_eq_cons_iff.mp last
  rw [List.map_eq_nil_iff.mp none] at split
  obtain ⟨_, _, gap, between, apart, same⟩ := (words_eq_pair_iff (trimmed_line line)).mp split
  refine ⟨gap, between, apart, String.toList_inj.mp ?_⟩
  rw [same]
  simp

theorem one_word {text : String} (word : IsWord isWhitespace text.toList) :
    splitWhitespace text = [text] := by
  rw [splitWhitespace, words_word word, List.map_singleton, String.ofList_toList]

theorem two_words (strict : texts.Strict) {ip m : BitVec 32} {gap : List Char}
    (address : texts.parseV4 first = some ip) (netmask : texts.parseV4 second = some m)
    (between : IsGap isWhitespace gap) (apart : gap ≠ []) :
    splitWhitespace (first ++ String.ofList gap ++ second) = [first, second] := by
  have front := strict.address first _ (parseIp_of_parseV4 address)
  have back := strict.address second _ (parseIp_of_parseV4 netmask)
  have text : (first ++ String.ofList gap ++ second).toList = first.toList ++ gap ++
    second.toList := by
    simp
  rw [splitWhitespace, text, words_pair front back between apart]
  simp

theorem parseSingle_eq_none : parseSingle texts first = none ↔
    texts.parseNet first = none ∧ texts.parseIp first = none := by
  unfold parseSingle
  cases texts.parseNet first with
  | some cidr => simp
  | none => simp

theorem form_of_one (strict : texts.Strict) (one : splitWhitespace (trim line) = [first])
    {S : Set IpAddr} :
    RouteForm texts (trim line) S ↔ (parseSingle texts first).map RouteDest.addresses =
    some S := by
  constructor
  · intro form
    obtain ⟨same, _⟩ := eq_of_one_word one
    generalize trim line = text at form one same
    cases form with
    | host address =>
        subst same
        cases network : texts.parseNet text with
        | some net =>
            rw [strict.apart _ net network] at address
            cases address
        | none => simp [parseSingle, network, address, addresses_host]
    | cidr network =>
        subst same
        simp [parseSingle, network, addresses_ofNet]
    | masked address netmask contiguous between apart =>
        rw [two_words strict address netmask between apart] at one
        cases one
  · intro read
    obtain ⟨same, _⟩ := eq_of_one_word one
    rw [same]
    obtain ⟨dest, parsed, rfl⟩ := Option.map_eq_some_iff.mp read
    unfold parseSingle at parsed
    cases network : texts.parseNet first with
    | some net =>
        rw [network] at parsed
        cases parsed
        rw [addresses_ofNet]
        exact .cidr network
    | none =>
        rw [network] at parsed
        obtain ⟨ip, address, rfl⟩ := Option.map_eq_some_iff.mp parsed
        rw [addresses_host]
        exact .host address

theorem form_of_more (strict : texts.Strict)
    (more : splitWhitespace (trim line) = first :: second :: parts) {S : Set IpAddr} :
    RouteForm texts (trim line) S ↔
      parts = [] ∧ (parseMasked texts first second).map RouteDest.addresses = some S := by
  constructor
  · intro form
    generalize trim line = text at form more
    cases form with
    | host address =>
        rw [one_word (strict.address _ _ address)] at more
        cases more
    | cidr network =>
        rw [one_word (strict.network _ _ network)] at more
        cases more
    | masked address netmask contiguous between apart =>
        rw [two_words strict address netmask between apart] at more
        cases more
        obtain ⟨dest, parsed⟩ := parseMasked_isSome address netmask contiguous
        obtain ⟨ip', m', address', netmask', _, denoted⟩ := parseMasked_eq_some parsed
        rw [address] at address'
        rw [netmask] at netmask'
        cases address'
        cases netmask'
        exact ⟨rfl, by rw [parsed, Option.map_some, denoted]⟩
  · rintro ⟨rfl, read⟩
    obtain ⟨dest, parsed, rfl⟩ := Option.map_eq_some_iff.mp read
    obtain ⟨ip, m, address, netmask, contiguous, denoted⟩ := parseMasked_eq_some parsed
    obtain ⟨gap, between, apart, same⟩ := eq_of_two_words more
    rw [same, denoted]
    exact .masked address netmask contiguous between apart

/-! ## What is read -/

def isComment (line : String) : Bool := line.toList.head? == some '#'

/-- Nothing of the line is passed over: it is blank or a comment, has one word, is an address
    and a contiguous netmask, or begins with neither an address nor a network. -/
def NothingIgnored (texts : AddressTexts) (line : String) : Prop :=
  isSkipped (trim line) = true ∨ ∃ first parts, splitWhitespace (trim line) = first :: parts ∧
    (parts = [] ∨
      (∃ second dest, parts = [second] ∧ parseMasked texts first second = some dest) ∨
      texts.parseNet first = none ∧ texts.parseIp first = none)

theorem isSkipped_of_blank (blank : splitWhitespace (trim line) = []) :
    isSkipped (trim line) = true := by
  have gap := words_eq_nil_iff.mp (List.map_eq_nil_iff.mp blank)
  have start := (trimmed_line line).start
  cases text : (trim line).toList with
  | nil => rw [isSkipped, text]; rfl
  | cons c rest =>
      rw [text] at gap start
      have inside := gap c List.mem_cons_self
      rw [start c rfl] at inside
      cases inside

theorem parseRouteLine_skipped (skipped : isSkipped (trim line) = true) :
    parseRouteLine texts line = none := by
  simp only [parseRouteLine, if_pos skipped]

theorem parseRouteLine_words (kept : ¬ isSkipped (trim line) = true)
    (split : splitWhitespace (trim line) = first :: parts) : parseRouteLine texts line =
      (parts.head?.bind (parseMasked texts first)).or (parseSingle texts first) := by
  simp only [parseRouteLine, if_neg kept, split]
  cases parts.head?.bind (parseMasked texts first) <;> rfl

theorem form_of_skipped (strict : texts.Strict) (skipped : isSkipped (trim line) = true)
    {S : Set IpAddr} :
    ¬ (isComment (trim line) = false ∧ RouteForm texts (trim line) S) := by
  rintro ⟨open_, form⟩
  have empty : (trim line).toList = [] := by
    rw [isSkipped, Bool.or_eq_true] at skipped
    rcases skipped with empty | comment
    · exact List.isEmpty_iff.mp empty
    · rw [isComment, comment] at open_
      cases open_
  generalize trim line = text at form empty
  cases form with
  | host address => exact (strict.address _ _ address).1 empty
  | cidr network => exact (strict.network _ _ network).1 empty
  | masked address netmask contiguous between apart =>
      have word := (strict.address _ _ (parseIp_of_parseV4 address)).1
      simp at empty
      exact word (by simp [empty.1])

/-- A line is read as the documented form it has, and not at all when it has none, exactly
    when nothing of it is passed over. -/
theorem parseRouteLine_reads_iff (strict : texts.Strict) (line : String) :
    (∀ S, (parseRouteLine texts line).map RouteDest.addresses = some S ↔
      isComment (trim line) = false ∧ RouteForm texts (trim line) S) ↔
      NothingIgnored texts line := by
  by_cases skipped : isSkipped (trim line) = true
  · refine iff_of_true (fun S => iff_of_false ?_ (form_of_skipped strict skipped)) (.inl skipped)
    rw [parseRouteLine_skipped skipped, Option.map_none]
    intro none
    cases none
  have plain : isComment (trim line) = false := by
    rw [isSkipped, Bool.or_eq_true, not_or] at skipped
    exact Bool.eq_false_of_not_eq_true skipped.2
  cases split : splitWhitespace (trim line) with
  | nil => exact absurd (isSkipped_of_blank split) skipped
  | cons first parts =>
      have ignored : NothingIgnored texts line ↔ parts = [] ∨
          (∃ second dest, parts = [second] ∧ parseMasked texts first second = some dest) ∨
            texts.parseNet first = none ∧ texts.parseIp first = none := by
        rw [NothingIgnored, or_iff_right skipped, split]
        simp
      rw [ignored, parseRouteLine_words skipped split]
      simp only [plain, true_and]
      cases parts with
      | nil =>
          refine iff_of_true (fun S => ?_) (.inl rfl)
          rw [form_of_one strict split]
          rfl
      | cons second rest =>
          simp only [form_of_more strict split, List.head?_cons, Option.bind_some]
          cases masked : parseMasked texts first second with
          | some dest =>
              cases rest with
              | nil =>
                  refine iff_of_true (fun S => ?_) (.inr (.inl ⟨second, dest, rfl, masked⟩))
                  simp
              | cons third rest =>
                  -- the words after the netmask are passed over
                  obtain ⟨ip, m, address, _⟩ := parseMasked_eq_some masked
                  refine iff_of_false (fun reads => ?_) ?_
                  · have none := (reads dest.addresses).mp rfl
                    cases none.1
                  · rintro (one | ⟨_, _, two, _⟩ | ⟨_, other⟩)
                    · cases one
                    · cases two
                    · rw [parseIp_of_parseV4 address] at other
                      cases other
          | none =>
              -- whatever the first word denotes is read, and the line has no form
              have other : (∃ second' dest, second :: rest = [second'] ∧
                  parseMasked texts first second' = some dest) ↔ False := by
                constructor
                · rintro ⟨_, dest, two, found⟩
                  cases two
                  rw [masked] at found
                  cases found
                · exact False.elim
              rw [other, false_or, or_iff_right (List.cons_ne_nil _ _), ← parseSingle_eq_none]
              cases parseSingle texts first with
              | none => simp
              | some dest => simp

/-! ## An instance -/

namespace AddressTexts

theorem isWhitespace_of_isDigit {c : Char} (digit : c.isDigit = true) : isWhitespace c = false := by
  simp only [Char.isDigit, isWhitespace, Bool.and_eq_true, decide_eq_true_eq, Bool.or_eq_false_iff,
    Bool.and_eq_false_iff, decide_eq_false_iff_not, beq_eq_false_iff_ne, ne_eq,
    UInt32.le_iff_toNat_le, ← UInt32.toNat_inj, ge_iff_le] at digit ⊢
  simp at digit ⊢
  omega

theorem word_of_tableParse {w : Nat} {table : List (String × BitVec w)} {text : String}
    {b : BitVec w} (positive : 0 < w)
    (listed : (table.all fun entry => !entry.1.toList.isEmpty && entry.1.toList.all fun c =>
      !isWhitespace c) = true) (parsed : tableParse table text = some b) : IsWord isWhitespace
      text.toList := by
  rcases text_of_tableParse parsed with known | ⟨long, bits⟩
  · obtain ⟨entry, inside, rfl⟩ := List.mem_map.mp known
    have word := List.all_eq_true.mp listed entry inside
    simp only [Bool.and_eq_true, Bool.not_eq_true', List.isEmpty_eq_false_iff,
      List.all_eq_true] at word
    exact word
  · constructor
    · intro empty
      rw [empty] at long
      exact absurd long (Nat.ne_of_lt positive)
    · intro c inside
      rcases bits c inside with rfl | rfl
      · decide
      · decide

theorem word_of_sample {text : String} {ip : IpAddr} (parsed : sample.parseIp text = some ip) :
    IsWord isWhitespace text.toList := by
  unfold parseIp at parsed
  split at parsed
  · rename_i four
    exact word_of_tableParse (by decide) (by decide) four
  · obtain ⟨b, six, _⟩ := Option.map_eq_some_iff.mp parsed
    exact word_of_tableParse (by decide) (by decide) six

theorem sampleNet_eq_some {text : String} {net : IpNet} (read : sampleNet text = some net) :
    (∃ ip, sample.parseIp (String.ofList (text.toList.takeWhile (· ≠ '/'))) = some ip) ∧
      ∀ c ∈ (text.toList.dropWhile (· ≠ '/')).tail, c.isDigit = true := by
  unfold sampleNet at read
  dsimp only at read
  split at read
  · cases read
  · rename_i digits
    simp only [Bool.or_eq_true, not_or, Bool.not_eq_true, Bool.not_eq_false'] at digits
    constructor
    · unfold parseIp
      split at read
      · rename_i ip four
        exact ⟨.v4 ip, by simp only [sample, four]⟩
      · rename_i four
        split at read
        · rename_i ip six
          exact ⟨.v6 ip, by simp only [sample, four, six, Option.map_some]⟩
        · cases read
    · exact List.all_eq_true.mp digits.2

theorem sample_strict : sample.Strict where
  address _ _ := word_of_sample
  network := by
    intro text net parsed
    obtain ⟨⟨ip, address⟩, digits⟩ := sampleNet_eq_some parsed
    have base := word_of_sample address
    have whole : text.toList.takeWhile (· ≠ '/') ++ text.toList.dropWhile (· ≠ '/') =
      text.toList :=
      List.takeWhile_append_dropWhile
    rw [String.toList_ofList] at base
    rw [← whole]
    constructor
    · exact List.append_ne_nil_of_left_ne_nil base.1 _
    · intro c inside
      rcases List.mem_append.mp inside with front | back
      · exact base.2 c front
      · have head := List.head?_dropWhile_not (fun c => decide (c ≠ '/')) text.toList
        cases rest : text.toList.dropWhile fun c => decide (c ≠ '/') with
        | nil =>
            rw [rest] at back
            cases back
        | cons d more =>
            rw [rest] at back head digits
            rcases List.mem_cons.mp back with rfl | later
            · have slash : c = '/' := by
                simpa using head
              rw [slash]
              decide
            · exact isWhitespace_of_isDigit (digits c later)
  apart := by
    intro text net parsed
    cases address : sample.parseIp text with
    | none => rfl
    | some ip =>
        have bare : ∀ c ∈ text.toList, decide (c ≠ '/') = true := fun c inside =>
          decide_eq_true fun slash => sample_slash address (slash ▸ inside)
        have nothing : (text.toList.dropWhile (· ≠ '/')).tail = [] := by
          have dropped := List.dropWhile_eq_nil_iff.mpr bare
          rw [dropped, List.tail_nil]
        have read : sampleNet text = some net := parsed
        rw [sampleNet, nothing] at read
        cases read

end AddressTexts

/-- An address and a contiguous netmask. -/
theorem sample_netmask : isComment (trim " 178.66.83.0  255.255.255.0") = false ∧
    RouteForm AddressTexts.sample (trim " 178.66.83.0  255.255.255.0")
      (RouteDest.addresses ⟨.v4 0xb2425300, 24⟩) := by
  have masked : parseMasked AddressTexts.sample "178.66.83.0" "255.255.255.0" =
      some ⟨.v4 0xb2425300, 24⟩ := by
    decide +kernel
  have split : splitWhitespace (trim " 178.66.83.0  255.255.255.0") =
    ["178.66.83.0", "255.255.255.0"] := by
    decide +kernel
  have read : parseRouteLine AddressTexts.sample " 178.66.83.0  255.255.255.0" =
    some ⟨.v4 0xb2425300, 24⟩ := by
    decide +kernel
  have reads := (parseRouteLine_reads_iff AddressTexts.sample_strict _).mpr
    (.inr ⟨_, _, split, .inr (.inl ⟨_, _, rfl, masked⟩)⟩)
  exact (reads _).mp (congrArg (Option.map RouteDest.addresses) read)

/-- A netmask with a hole is passed over and the address becomes a host route; the line has
    no documented form. -/
theorem sample_hole : parseRouteLine AddressTexts.sample "10.0.0.0 255.0.255.0" =
      some ⟨.v4 0x0a000000, 32⟩ ∧
    ∀ S, ¬ RouteForm AddressTexts.sample (trim "10.0.0.0 255.0.255.0") S := by
  have split : splitWhitespace (trim "10.0.0.0 255.0.255.0") = ["10.0.0.0", "255.0.255.0"] := by
    decide +kernel
  have hole : parseMasked AddressTexts.sample "10.0.0.0" "255.0.255.0" = none := by
    decide +kernel
  constructor
  · decide +kernel
  · intro S form
    have read := ((form_of_more AddressTexts.sample_strict split).mp form).2
    rw [hole] at read
    cases read

end Rustnies
