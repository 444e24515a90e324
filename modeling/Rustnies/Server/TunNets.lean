import Rustnies.Platform.Addresses
import Rustnies.Platform.NatRules
import Mathlib.Tactic.IntervalCases

/-! # The subnet of the tunnel

`run_server` in `daemon/mod.rs` derives two things from the tunnel's address and prefix
length: the source of the masquerade rules and the networks that inner addresses are
believed from. Both are texts of a base address and the prefix length. The IPv4 base is
masked bit by bit, the IPv6 base by whole groups and from 64 bits on.
-/

namespace Rustnies

open Subnet

/-! ## The bases -/

/-- `segments`: the eight groups of an address. -/
def segments (ip : BitVec 128) : Fin 8 → BitVec 16 := fun k => ip.extractLsb' (112 - 16 * k) 16

/-- `Ipv6Addr::from([u16; 8])`. -/
def ofSegments (segs : Fin 8 → BitVec 16) : BitVec 128 :=
  segs 0 ++ segs 1 ++ segs 2 ++ segs 3 ++ segs 4 ++ segs 5 ++ segs 6 ++ segs 7

variable (texts : AddressTexts)

def cidrBase (addr : String) (prefixLen : Nat) : String :=
  match texts.parseV4 addr with
  | some ip => if prefixLen ≤ 32 then texts.showV4 (texts.networkV4 ip prefixLen) else addr
  | none => addr

def cidrBaseV6 (addr : String) (prefixLen : Nat) : String :=
  match texts.parseV6 addr with
  | some ip =>
      if 64 ≤ prefixLen then
        let networkGroups := prefixLen / 16
        texts.showV6 (ofSegments fun k => if k.val < networkGroups then segments ip k else 0)
      else addr
  | none => addr

/-! ## What is made of them -/

/-- The fields of `ServerConfig` the tunnel's networks come from. -/
structure TunAddresses where
  tunName : String
  tunAddr : String
  tunPrefix : Nat
  tunAddr6 : Option String
  tunPrefix6 : Option Nat
  natOutIface : Option String

namespace TunAddresses

def tunCidr (cfg : TunAddresses) : String :=
  cidrText (cidrBase texts cfg.tunAddr cfg.tunPrefix) cfg.tunPrefix

def prefix6 (cfg : TunAddresses) : Nat := cfg.tunPrefix6.getD 64

def cidr6 (cfg : TunAddresses) : Option String :=
  cfg.tunAddr6.map fun addr6 => cidrText (cidrBaseV6 texts addr6 cfg.prefix6) cfg.prefix6

/-- The family of a network's text. -/
def family (text : String) : Option FirewallFamily :=
  (texts.parseNet text).map fun net =>
    match net with
    | .v4 _ _ => .ipv4
    | .v6 _ _ => .ipv6

/-- The rules that are installed when NAT is enabled. -/
def natRules (cfg : TunAddresses) : NatRules :=
  let rules := NatRules.new (family texts) (cfg.tunCidr texts) cfg.tunName cfg.natOutIface
  match cfg.cidr6 texts with
  | some cidr6 => rules.withV6Cidr (family texts) cidr6
  | none => rules

/-- The networks the dispatcher trusts. -/
def tunNets (cfg : TunAddresses) : List IpNet :=
  (texts.parseNet (cfg.tunCidr texts)).toList ++ ((cfg.cidr6 texts).bind texts.parseNet).toList

end TunAddresses

/-! ## Groups -/

theorem append_left {n m : Nat} (x : BitVec n) (y : BitVec m) {i : Nat} (low : i < n) :
    (x ++ y).getMsbD i = x.getMsbD i := by
  rw [BitVec.getMsbD_append, if_neg (Nat.not_le.mpr low)]

theorem append_right {n m : Nat} (x : BitVec n) (y : BitVec m) {i k : Nat} (place : k = n + i) :
    (x ++ y).getMsbD k = y.getMsbD i := by
  rw [BitVec.getMsbD_append, if_pos (by omega), place, Nat.add_sub_cancel_left]

theorem getMsbD_ofSegments (segs : Fin 8 → BitVec 16) (k : Fin 8) {j : Nat} (inside : j < 16) :
    (ofSegments segs).getMsbD (16 * k + j) = (segs k).getMsbD j := by
  obtain ⟨k, small⟩ := k
  simp only [ofSegments]
  interval_cases k
  · simp (disch := omega) only [append_left, Nat.mul_zero, Nat.zero_add]
    rfl
  all_goals
    simp (disch := omega) only [append_left, Nat.reduceMul]
    exact append_right _ _ rfl

theorem getMsbD_segments (ip : BitVec 128) (k : Fin 8) {j : Nat} (inside : j < 16) :
    (segments ip k).getMsbD j = ip.getMsbD (16 * k + j) := by
  have small := k.isLt
  simp only [segments, BitVec.getMsbD, BitVec.getLsbD_extractLsb']
  have place : 112 - 16 * k.val + (16 - 1 - j) = 128 - 1 - (16 * k.val + j) := by omega
  grind

theorem getMsbD_base (ip : BitVec 128) (p : Nat) {i : Nat} (inside : i < 128) :
    (ofSegments fun k => if k.val < p / 16 then segments ip k else 0).getMsbD i =
      (decide (i < 16 * (p / 16)) && ip.getMsbD i) := by
  have place : 16 * (i / 16) + i % 16 = i := Nat.div_add_mod i 16
  have bit : i % 16 < 16 := Nat.mod_lt i (by decide)
  have bits := getMsbD_ofSegments (fun k => if k.val < p / 16 then segments ip k else 0)
    ⟨i / 16, by omega⟩ bit
  rw [place] at bits
  rw [bits]
  by_cases kept : i / 16 < p / 16
  · have group := getMsbD_segments ip ⟨i / 16, by omega⟩ bit
    rw [place] at group
    have before : i < 16 * (p / 16) := by omega
    rw [if_pos kept, group, decide_eq_true before, Bool.true_and]
  · have after : ¬ i < 16 * (p / 16) := by omega
    rw [if_neg kept, decide_eq_false after, Bool.false_and]
    exact BitVec.getMsbD_zero

/-! ## What the texts denote -/

variable {texts} {addr : String} {p : Nat}

/-- The addresses of the network a text denotes. -/
def AddressTexts.denoted (texts : AddressTexts) (text : String) : Option (Set IpAddr) :=
  (texts.parseNet text).map IpNet.addresses

theorem denoted_cidrBase (faithful : texts.Faithful) {ip : BitVec 32}
    (parses : texts.parseV4 addr = some ip) (inside : p ≤ 32) :
    texts.parseNet (cidrText (cidrBase texts addr p) p) = some (.v4 (texts.networkV4 ip p) p) ∧
    covers (texts.networkV4 ip p) p = covers ip p := by
  constructor
  · rw [cidrBase, parses]
    simp only [if_pos inside]
    exact faithful.netV4 _ _ p (faithful.shownV4 _) inside
  · rw [covers_eq_iff]
    intro i before
    rw [faithful.network ip p i inside, decide_eq_true before, Bool.true_and]

/-- The address the IPv6 base stands for. -/
def baseV6 (ip : BitVec 128) (p : Nat) : BitVec 128 :=
  if 64 ≤ p then ofSegments fun k => if k.val < p / 16 then segments ip k else 0 else ip

theorem parseNet_cidrBaseV6 (faithful : texts.Faithful) {ip : BitVec 128}
    (parses : texts.parseV6 addr = some ip) (inside : p ≤ 128) :
    texts.parseNet (cidrText (cidrBaseV6 texts addr p) p) = some (.v6 (baseV6 ip p) p) := by
  rw [cidrBaseV6, parses, baseV6]
  by_cases long : 64 ≤ p
  · simp only [if_pos long]
    exact faithful.netV6 _ _ p (faithful.shownV6 _) inside
  · simp only [if_neg long]
    exact faithful.netV6 addr ip p parses inside

/-- Where masking by groups is masking by bits: below 64 nothing is masked, and otherwise
    the address has no bit between the last whole group and the end of the prefix. -/
def WholeGroups (ip : BitVec 128) (p : Nat) : Prop :=
  p < 64 ∨ ∀ i, 16 * (p / 16) ≤ i → i < p → ip.getMsbD i = false

theorem covers_baseV6_iff {ip : BitVec 128} (inside : p ≤ 128) :
    covers (baseV6 ip p) p = covers ip p ↔ WholeGroups ip p := by
  rw [covers_eq_iff, baseV6, WholeGroups]
  by_cases long : 64 ≤ p
  · rw [if_pos long, or_iff_right (Nat.not_lt.mpr long)]
    constructor
    · intro same i whole before
      have bit := same i before
      rw [getMsbD_base ip p (by omega), decide_eq_false (Nat.not_lt.mpr whole),
        Bool.false_and] at bit
      exact bit.symm
    · intro clear i before
      rw [getMsbD_base ip p (by omega)]
      by_cases whole : i < 16 * (p / 16)
      · rw [decide_eq_true whole, Bool.true_and]
      · rw [decide_eq_false whole, Bool.false_and, clear i (Nat.le_of_not_lt whole) before]
  · rw [if_neg long]
    exact iff_of_true (fun _ _ => rfl) (.inl (Nat.lt_of_not_le long))

theorem image_v6_injective {s t : Set (BitVec 128)} :
    Set.image IpAddr.v6 s = Set.image IpAddr.v6 t ↔ s = t :=
  (Set.image_injective.mpr fun _ _ same => IpAddr.v6.inj same).eq_iff

namespace TunAddresses

variable {cfg : TunAddresses} {ip4 : BitVec 32} {ip : BitVec 128}

/-- The masquerade source and the trusted networks are the tunnel's IPv6 subnet. -/
structure Exact (texts : AddressTexts) (cfg : TunAddresses) (ip : BitVec 128) : Prop where
  masquerade : ((cfg.natRules texts).sourceCidrV6.bind texts.denoted) =
    some (Set.image IpAddr.v6 (covers ip cfg.prefix6))
  trusted : {x | ∃ net ∈ cfg.tunNets texts, IpAddr.v6 x ∈ net.addresses} =
    covers ip cfg.prefix6

/-- A server with a tunnel of both families. -/
structure DualStack (texts : AddressTexts) (cfg : TunAddresses) (ip4 : BitVec 32)
    (ip : BitVec 128) : Prop where
  four : texts.parseV4 cfg.tunAddr = some ip4
  inside4 : cfg.tunPrefix ≤ 32
  six : cfg.tunAddr6.bind texts.parseV6 = some ip
  inside6 : cfg.prefix6 ≤ 128

theorem DualStack.cidr6 (dual : cfg.DualStack texts ip4 ip) (faithful : texts.Faithful) :
    ∃ text, cfg.cidr6 texts = some text ∧ texts.parseNet text =
    some (.v6 (baseV6 ip cfg.prefix6) cfg.prefix6) := by
  obtain ⟨addr6, configured, parses⟩ := Option.bind_eq_some_iff.mp dual.six
  rw [TunAddresses.cidr6, configured]
  exact ⟨_, rfl, parseNet_cidrBaseV6 faithful parses dual.inside6⟩

theorem DualStack.source (dual : cfg.DualStack texts ip4 ip) (faithful : texts.Faithful) :
    (cfg.natRules texts).sourceCidrV6.bind texts.denoted =
      some (Set.image IpAddr.v6 (covers (baseV6 ip cfg.prefix6) cfg.prefix6)) := by
  obtain ⟨text, configured, net⟩ := dual.cidr6 faithful
  have six : family texts text = some .ipv6 := by
    rw [family, net]
    rfl
  rw [natRules, configured]
  simp only [NatRules.withV6Cidr, if_pos six, Option.bind_some, AddressTexts.denoted, net,
    Option.map_some, IpNet.addresses]

theorem DualStack.trusted (dual : cfg.DualStack texts ip4 ip) (faithful : texts.Faithful) :
    cfg.tunNets texts = [.v4 (texts.networkV4 ip4 cfg.tunPrefix) cfg.tunPrefix,
      .v6 (baseV6 ip cfg.prefix6) cfg.prefix6] := by
  obtain ⟨text, configured, net⟩ := dual.cidr6 faithful
  rw [tunNets, tunCidr, (denoted_cidrBase faithful dual.four dual.inside4).1, configured,
    Option.bind_some, net]
  rfl

theorem DualStack.exact_iff (dual : cfg.DualStack texts ip4 ip) (faithful : texts.Faithful) :
    cfg.Exact texts ip ↔ covers (baseV6 ip cfg.prefix6) cfg.prefix6 = covers ip cfg.prefix6 := by
  have trusted : {x | ∃ net ∈ cfg.tunNets texts, IpAddr.v6 x ∈ net.addresses} =
      covers (baseV6 ip cfg.prefix6) cfg.prefix6 := by
    rw [dual.trusted faithful]
    ext x
    simp [IpNet.addresses]
  constructor
  · intro exact
    exact trusted.symm.trans exact.trusted
  · intro same
    exact ⟨by rw [dual.source faithful, same], trusted.trans same⟩

end TunAddresses

/-- The IPv6 base with its prefix length denotes the addresses that share the prefix, and so
    the masquerade source and the trusted networks are the tunnel's subnet, exactly when
    whole groups suffice; the IPv4 base always does. -/
theorem cidrBaseV6_denoted_iff (faithful : texts.Faithful) {ip : BitVec 128}
    (parses : texts.parseV6 addr = some ip) (inside : p ≤ 128) :
    (texts.denoted (cidrText (cidrBaseV6 texts addr p) p) =
      some (Set.image IpAddr.v6 (covers ip p)) ↔ WholeGroups ip p) ∧
    ∀ cfg ip4, cfg.prefix6 = p → TunAddresses.DualStack texts cfg ip4 ip →
      (cfg.Exact texts ip ↔ WholeGroups ip p) ∧
      texts.denoted (cfg.tunCidr texts) =
      some (Set.image IpAddr.v4 (covers ip4 cfg.tunPrefix)) := by
  constructor
  · rw [AddressTexts.denoted, parseNet_cidrBaseV6 faithful parses inside, Option.map_some,
      Option.some.injEq, IpNet.addresses, image_v6_injective]
    exact covers_baseV6_iff inside
  · intro cfg ip4 length dual
    subst length
    obtain ⟨net, same⟩ := denoted_cidrBase faithful dual.four dual.inside4
    constructor
    · rw [dual.exact_iff faithful]
      exact covers_baseV6_iff inside
    · rw [AddressTexts.denoted, TunAddresses.tunCidr, net, Option.map_some, IpNet.addresses, same]

/-- A tunnel with the default prefix lengths. -/
def defaultTun : TunAddresses where
  tunName := "rustnies0"
  tunAddr := "10.7.0.1"
  tunPrefix := 24
  tunAddr6 := some "fd00::1"
  tunPrefix6 := none
  natOutIface := none

/-- Its subnets are `fd00::/64` and `10.7.0.0/24`. -/
theorem defaultTun_exact :
    AddressTexts.sample.denoted (cidrText (cidrBaseV6 AddressTexts.sample "fd00::1" 64) 64) =
      some (Set.image IpAddr.v6 (covers 0xfd000000000000000000000000000001 64)) ∧
    defaultTun.Exact AddressTexts.sample 0xfd000000000000000000000000000001 ∧
    AddressTexts.sample.denoted (defaultTun.tunCidr AddressTexts.sample) =
      some (Set.image IpAddr.v4 (covers 0x0a070001 24)) := by
  have whole : WholeGroups 0xfd000000000000000000000000000001 64 := .inr fun _ after before =>
    absurd before (Nat.not_lt.mpr after)
  have dual : defaultTun.DualStack AddressTexts.sample 0x0a070001
    0xfd000000000000000000000000000001 :=
    ⟨by decide, by decide, by decide, by decide⟩
  have parses : AddressTexts.sample.parseV6 "fd00::1" =
    some 0xfd000000000000000000000000000001 := by
    decide
  have inside : 64 ≤ 128 := by
    decide
  obtain ⟨base, built⟩ := cidrBaseV6_denoted_iff AddressTexts.sample_faithful parses inside
  obtain ⟨exact, four⟩ := built defaultTun 0x0a070001 rfl dual
  exact ⟨base.mpr whole, exact.mpr whole, four⟩

/-- At 68 bits the first four bits of the fifth group are cleared with the rest of it, and
    the network the rules and the dispatcher get does not contain the tunnel's own address. -/
theorem sample_slash68 :
    cidrBaseV6 AddressTexts.sample "fd00::1234:0:0:1" 68 = "fd00::" ∧
      AddressTexts.sample.denoted
      (cidrText (cidrBaseV6 AddressTexts.sample "fd00::1234:0:0:1" 68) 68) ≠
      some (Set.image IpAddr.v6 (covers 0xfd000000000000001234000000000001 68)) := by
  constructor
  · decide
  · have parses : AddressTexts.sample.parseV6 "fd00::1234:0:0:1" =
        some 0xfd000000000000001234000000000001 := by
      decide
    have inside : 68 ≤ 128 := by
      decide
    have net := parseNet_cidrBaseV6 AddressTexts.sample_faithful parses inside
    rw [AddressTexts.denoted, net, Option.map_some, IpNet.addresses]
    intro same
    have exact := image_v6_injective.mp (Option.some.inj same)
    rcases (covers_baseV6_iff inside).mp exact with short | clear
    · omega
    · exact absurd (clear 67 (by decide) (by decide)) (by decide)

end Rustnies
