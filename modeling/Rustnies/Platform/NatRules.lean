import Rustnies.Platform.Firewall

/-! # The NAT rules

`NatRules` in `platform/linux.rs`. Before an IPv4 rule is appended an equal one is deleted;
an IPv6 rule is appended to whatever is there. All appended rules go into one record,
without their family, and `remove` deletes each from both tables.
-/

namespace Rustnies

/-- A table and the arguments after it: chain, match and target. -/
structure NatRule where
  table : String
  spec : List String
  deriving Repr, DecidableEq

/-- What `iptables` and `ip6tables` hold. -/
abbrev NatTables := FirewallFamily → List NatRule

inductive NatAction where
  | append
  | delete
  deriving Repr, DecidableEq

/-- The host: its IPv6 support, its default route, and the commands it carries out where
    there is something to do. -/
structure NatHost where
  ipv6Available : Bool
  defaultRouteIface : Option String
  permits : FirewallFamily → NatAction → NatRule → Bool

namespace NatTables

/-- One call of `iptables` or `ip6tables`: whether it succeeded, and the tables after it. -/
def command (host : NatHost) (fw : NatTables) (family : FirewallFamily) (action : NatAction)
    (rule : NatRule) :
    Bool × NatTables :=
  match action with
  | .append =>
      if host.permits family .append rule
        then (true, Function.update fw family (fw family ++ [rule]))
      else (false, fw)
  | .delete =>
      if host.permits family .delete rule ∧ rule ∈ fw family then
        (true, Function.update fw family ((fw family).erase rule))
      else (false, fw)

end NatTables

structure NatRules where
  sourceCidr : Option String
  sourceCidrV6 : Option String
  tunName : String
  outIface : Option String
  masqAll : Bool
  installed : List NatRule := []

def masqSpec (source : Option String) (iface : String) : List String :=
  ["POSTROUTING"] ++ (match source with
    | some s => ["-s", s]
    | none => []) ++ ["-o", iface, "-j", "MASQUERADE"]

def forwardSpec (direction tunName : String) : List String :=
  ["FORWARD", direction, tunName, "-j", "ACCEPT"]

namespace NatRules

/-- The family of a network, `none` when the text is not one. -/
abbrev ParseNet := String → Option FirewallFamily

/-- On the server: masquerade the tunnel's subnet. -/
def new (parse : ParseNet) (tunCidr tunName : String) (outIface : Option String) : NatRules where
  sourceCidr := if parse tunCidr = some .ipv6 then none else some tunCidr
  sourceCidrV6 := if parse tunCidr = some .ipv6 then some tunCidr else none
  tunName := tunName
  outIface := outIface
  masqAll := false

def withV6Cidr (parse : ParseNet) (rules : NatRules) (cidr6 : String) : NatRules :=
  if parse cidr6 = some .ipv6 then { rules with sourceCidrV6 := some cidr6 } else rules

/-- On the client: masquerade one network behind it, or everything. -/
def newClient (parse : ParseNet) (sourceCidr : Option String) (tunName : String) : NatRules where
  sourceCidr := sourceCidr.filter fun s => parse s ≠ some .ipv6
  sourceCidrV6 := sourceCidr.filter fun s => parse s = some .ipv6
  tunName := tunName
  outIface := some tunName
  masqAll := sourceCidr.isNone

def plannedV4 (rules : NatRules) (iface : String) : List NatRule :=
  (if rules.sourceCidr.isSome ∨ rules.masqAll then [⟨"nat", masqSpec rules.sourceCidr iface⟩]
    else []) ++ [⟨"filter", forwardSpec "-i" rules.tunName⟩,
    ⟨"filter", forwardSpec "-o" rules.tunName⟩]

def plannedV6Masq (rules : NatRules) (iface : String) : Option (List String) :=
  match rules.sourceCidrV6 with
  | some s => some (masqSpec (some s) iface)
  | none => if rules.masqAll then some (masqSpec none iface) else none

/-- What `install` tries to append with `ip6tables`. -/
def plannedV6 (rules : NatRules) (host : NatHost) (iface : String) : List NatRule :=
  if host.ipv6Available then
    ((rules.plannedV6Masq iface).toList.map fun spec => ⟨"nat", spec⟩) ++
      ["-i", "-o"].map fun direction => ⟨"filter", forwardSpec direction rules.tunName⟩
  else []

/-- The IPv4 loop, which ends at the first rule that is not appended. The result says
    whether it came through, which rules it recorded, and the tables. -/
def installV4 (host : NatHost) :
    List NatRule → List NatRule → NatTables → Bool × List NatRule × NatTables
  | [], installed, fw => (true, installed, fw)
  | rule :: rest, installed, fw =>
      let fw := (fw.command host .ipv4 .delete rule).2
      match fw.command host .ipv4 .append rule with
      | (true, fw) => installV4 host rest (installed ++ [rule]) fw
      | (false, fw) => (false, installed, fw)

/-- The IPv6 rules, as far as they can be appended. -/
def installV6 (host : NatHost) :
    List NatRule → List NatRule → NatTables → List NatRule × NatTables
  | [], installed, fw => (installed, fw)
  | rule :: rest, installed, fw =>
      match fw.command host .ipv6 .append rule with
      | (true, fw) => installV6 host rest (installed ++ [rule]) fw
      | (false, fw) => installV6 host rest installed fw

def iface (rules : NatRules) (host : NatHost) : Option String :=
  match rules.outIface with
  | some iface => some iface
  | none => host.defaultRouteIface

def install (host : NatHost) (rules : NatRules) (fw : NatTables) : Bool × NatRules × NatTables :=
  match rules.iface host with
  | none => (false, rules, fw)
  | some iface =>
      match installV4 host (rules.plannedV4 iface) rules.installed fw with
      | (false, installed, fw) => (false, { rules with installed := installed }, fw)
      | (true, installed, fw) =>
          let (installed, fw) := installV6 host (rules.plannedV6 host iface) installed fw
          (true, { rules with installed := installed }, fw)

/-- Delete each recorded rule from both tables. -/
def removeAll (host : NatHost) (installed : List NatRule) (fw : NatTables) : NatTables :=
  installed.foldl (fun fw rule =>
    ((fw.command host .ipv4 .delete rule).2.command host .ipv6 .delete rule).2) fw

def remove (host : NatHost) (rules : NatRules) (fw : NatTables) : NatRules × NatTables :=
  ({ rules with installed := [] }, removeAll host rules.installed fw)

end NatRules

/-! ## How often a rule is there -/

namespace NatTables

variable {host : NatHost} {fw : NatTables} {family other : FirewallFamily} {rule q : NatRule}

theorem count_append :
    ((fw.command host family .append rule).2 other).count q =
      (fw other).count q + if other = family ∧ rule = q ∧ host.permits family .append rule
      then 1 else 0 := by
  by_cases permitted : host.permits family .append rule = true
  · simp only [command, if_pos permitted]
    by_cases here : other = family
    · subst here
      simp [List.count_singleton, permitted]
    · rw [Function.update_of_ne here, if_neg fun same => here same.1, Nat.add_zero]
  · simp only [command, if_neg permitted]
    rw [if_neg fun same => permitted same.2.2, Nat.add_zero]

theorem count_delete :
    ((fw.command host family .delete rule).2 other).count q =
      (fw other).count q - if other = family ∧ rule = q ∧ host.permits family .delete rule
      then 1 else 0 := by
  by_cases deletes : host.permits family .delete rule = true ∧ rule ∈ fw family
  · simp only [command, if_pos deletes]
    by_cases here : other = family
    · subst here
      simp [List.count_erase, deletes.1]
    · rw [Function.update_of_ne here, if_neg fun same => here same.1, Nat.sub_zero]
  · simp only [command, if_neg deletes]
    split
    · rename_i same
      obtain ⟨rfl, rfl, permitted⟩ := same
      have absent : rule ∉ fw other := fun present => deletes ⟨permitted, present⟩
      rw [List.count_eq_zero.mpr absent]
    · rfl

theorem command_other {action : NatAction} (different : other ≠ family) :
    (fw.command host family action rule).2 other = fw other := by
  cases action with
  | append =>
      simp only [command]
      split
      · exact Function.update_of_ne different ..
      · rfl
  | delete =>
      simp only [command]
      split
      · exact Function.update_of_ne different ..
      · rfl

theorem command_false {action : NatAction} {fw' : NatTables}
    (ran : fw.command host family action rule = (false, fw')) : fw' = fw := by
  cases action with
  | append =>
      simp only [command] at ran
      split at ran
      · cases ran
      · cases ran
        rfl
  | delete =>
      simp only [command] at ran
      split at ran
      · cases ran
      · cases ran
        rfl

theorem append_fst :
    (fw.command host family .append rule).1 = host.permits family .append rule := by
  simp only [command]
  split
  · rename_i permitted
    exact permitted.symm
  · rename_i refused
    exact (Bool.not_eq_true _ ▸ refused).symm

end NatTables

namespace NatRules

variable {host : NatHost} {fw fw' : NatTables}

/-- Every recorded rule is deleted as often as it is recorded. -/
theorem count_removeAll (installed : List NatRule) (fw : NatTables) (family : FirewallFamily)
    (q : NatRule) :
    (removeAll host installed fw family).count q =
      (fw family).count q - if host.permits family .delete q then installed.count q else 0 := by
  induction installed generalizing fw with
  | nil => simp [removeAll]
  | cons rule rest ih =>
      have both : (((fw.command host .ipv4 .delete rule).2.command host .ipv6 .delete rule).2
        family).count q = (fw family).count q - if rule = q ∧ host.permits family .delete q then 1
        else 0 := by
        rw [NatTables.count_delete, NatTables.count_delete]
        cases family with
        | ipv4 =>
            simp only [reduceCtorEq, false_and, if_false, Nat.sub_zero, true_and]
            exact congrArg _ (if_congr (and_congr_right fun same => same ▸ Iff.rfl) rfl rfl)
        | ipv6 =>
            simp only [reduceCtorEq, false_and, if_false, Nat.sub_zero, true_and]
            exact congrArg _ (if_congr (and_congr_right fun same => same ▸ Iff.rfl) rfl rfl)
      rw [removeAll, List.foldl_cons, ← removeAll, ih, both, List.count_cons]
      simp only [beq_iff_eq]
      by_cases permitted : host.permits family .delete q = true
      · simp only [permitted, and_true, if_true]
        omega
      · simp only [permitted, and_false, if_false, Bool.false_eq_true, Nat.sub_zero]

/-- The IPv4 loop leaves one copy of a rule, and those above the first. -/
theorem installV4_ok {rs installed installed' : List NatRule} (distinct : rs.Nodup)
    (ran : installV4 host rs installed fw = (true, installed', fw')) :
    installed' = installed ++ rs ∧ fw' .ipv6 = fw .ipv6 ∧ ∀ q, (fw' .ipv4).count q =
      if q ∈ rs then (fw .ipv4).count q - (if host.permits .ipv4 .delete q then 1 else 0) + 1
      else (fw .ipv4).count q := by
  induction rs generalizing installed fw with
  | nil =>
      cases ran
      exact ⟨(List.append_nil _).symm, rfl, fun q => (if_neg List.not_mem_nil).symm⟩
  | cons rule rest ih =>
      obtain ⟨fresh, distinct⟩ := List.nodup_cons.mp distinct
      rw [installV4] at ran
      split at ran
      · rename_i fw₂ appended
        obtain ⟨recorded, other, counts⟩ := ih distinct ran
        have permitted : host.permits .ipv4 .append rule = true := by
          rw [← NatTables.append_fst, appended]
        have untouched : fw₂ .ipv6 = fw .ipv6 := by
          have kept : ((fw.command host .ipv4 .delete rule).2.command host .ipv4 .append rule).2
            .ipv6 = (fw.command host .ipv4 .delete rule).2 .ipv6 :=
            NatTables.command_other (by decide)
          rw [appended] at kept
          exact kept.trans (NatTables.command_other (by decide))
        have step : ∀ q, (fw₂ .ipv4).count q = (fw .ipv4).count q -
            (if rule = q ∧ host.permits .ipv4 .delete q then 1 else 0) + if rule = q then 1
              else 0 := by
          intro q
          have count :
            (((fw.command host .ipv4 .delete rule).2.command host .ipv4 .append rule).2 .ipv4).count
            q = _ :=
            NatTables.count_append
          rw [appended, NatTables.count_delete] at count
          simp only [true_and, permitted, and_true] at count
          rw [count]
          by_cases same : rule = q
          · rw [same]
          · simp only [same, false_and, if_false]
        refine ⟨?_, other.trans untouched, fun q => ?_⟩
        · rw [recorded, List.append_assoc, List.singleton_append]
        · rw [counts, step]
          by_cases same : rule = q
          · subst same
            simp [fresh]
          · simp [same, Ne.symm same]
      · cases ran

/-- The IPv6 loop adds a copy of each rule that can be appended. -/
theorem installV6_eq {rs : List NatRule} (distinct : rs.Nodup) (installed : List NatRule)
    (fw : NatTables) :
    (installV6 host rs installed fw).1 = installed ++ rs.filter (host.permits .ipv6 .append) ∧
      (installV6 host rs installed fw).2 .ipv4 = fw .ipv4 ∧
      ∀ q, ((installV6 host rs installed fw).2 .ipv6).count q =
        (fw .ipv6).count q + if q ∈ rs ∧ host.permits .ipv6 .append q then 1 else 0 := by
  induction rs generalizing installed fw with
  | nil => simp [installV6]
  | cons rule rest ih =>
      obtain ⟨fresh, distinct⟩ := List.nodup_cons.mp distinct
      rw [installV6]
      have permitted : (fw.command host .ipv6 .append rule).1 = host.permits .ipv6 .append rule :=
        NatTables.append_fst
      have other : (fw.command host .ipv6 .append rule).2 .ipv4 = fw .ipv4 :=
        NatTables.command_other (by decide)
      have count : ∀ q, ((fw.command host .ipv6 .append rule).2 .ipv6).count q = _ := fun _ =>
        NatTables.count_append
      split
      · rename_i fw₂ appended
        rw [appended] at permitted other
        simp only [appended, true_and] at count
        obtain ⟨recorded, kept, counts⟩ := ih distinct (installed ++ [rule]) fw₂
        refine ⟨?_, kept.trans other, fun q => ?_⟩
        · rw [recorded, List.filter_cons_of_pos permitted.symm, List.append_assoc,
            List.singleton_append]
        · rw [counts, count]
          by_cases same : rule = q
          · subst same
            simp [fresh]
          · simp [same, Ne.symm same]
      · rename_i fw₂ refused
        rw [refused] at permitted
        cases NatTables.command_false refused
        obtain ⟨recorded, kept, counts⟩ := ih distinct installed fw
        refine ⟨?_, kept, fun q => ?_⟩
        · rw [recorded, List.filter_cons_of_neg (by rw [← permitted]; exact Bool.false_ne_true)]
        · rw [counts]
          by_cases same : rule = q
          · subst same
            simp [fresh, ← permitted]
          · simp [Ne.symm same]

/-! ## An installation and its removal -/

variable {rules : NatRules} {iface : String}

theorem plannedV4_nodup : (rules.plannedV4 iface).Nodup := by
  simp only [plannedV4]
  split <;> simp [forwardSpec]

theorem plannedV6_nodup : (rules.plannedV6 host iface).Nodup := by
  simp only [plannedV6]
  split
  · cases rules.plannedV6Masq iface <;> simp [forwardSpec]
  · exact List.nodup_nil

/-- The tables after `install`. -/
def afterInstall (host : NatHost) (rules : NatRules) (fw : NatTables) : NatTables :=
  (rules.install host fw).2.2

/-- The tables after `install` and `remove`. -/
def afterRemove (host : NatHost) (rules : NatRules) (fw : NatTables) : NatTables :=
  ((rules.install host fw).2.1.remove host (rules.install host fw).2.2).2

/-- Every planned rule is installed once, and after the removal none is left in either
    family; the other rules are as often there as before. -/
structure Orderly (host : NatHost) (rules : NatRules) (iface : String) (fw : NatTables) : Prop where
  once4 : ∀ rule ∈ rules.plannedV4 iface, (rules.afterInstall host fw .ipv4).count rule = 1
  once6 : ∀ rule ∈ rules.plannedV6 host iface, (rules.afterInstall host fw .ipv6).count rule = 1
  gone : ∀ rule, rule ∈ rules.plannedV4 iface ∨ rule ∈ rules.plannedV6 host iface →
    ∀ family, (rules.afterRemove host fw family).count rule = 0
  kept : ∀ rule, ¬ (rule ∈ rules.plannedV4 iface ∨ rule ∈ rules.plannedV6 host iface) →
    ∀ family, (rules.afterRemove host fw family).count rule = (fw family).count rule

/-- What the tables and the host must be like for that. -/
structure Clear (host : NatHost) (rules : NatRules) (iface : String) (fw : NatTables) : Prop where
  /-- An IPv4 rule is there at most once, and can be deleted. -/
  v4 : ∀ rule ∈ rules.plannedV4 iface, (fw .ipv4).count rule ≤ 1 ∧
    host.permits .ipv4 .delete rule = true
  /-- An IPv6 rule can be deleted, and is not there but can be appended; or it stands in for
      one that cannot, where `remove` deletes it on account of the IPv4 rule. -/
  v6 : ∀ rule ∈ rules.plannedV6 host iface, host.permits .ipv6 .delete rule = true ∧
    if host.permits .ipv6 .append rule then (fw .ipv6).count rule = 0
    else (fw .ipv6).count rule = 1 ∧ rule ∈ rules.plannedV4 iface
  /-- A rule for IPv4 only is not in the IPv6 table beyond what `remove` deletes. -/
  stray6 : ∀ rule ∈ rules.plannedV4 iface, rule ∉ rules.plannedV6 host iface →
    (fw .ipv6).count rule ≤ if host.permits .ipv6 .delete rule then 1 else 0
  /-- A rule for IPv6 only is not in the IPv4 table beyond what `remove` deletes. -/
  stray4 : ∀ rule ∈ rules.plannedV6 host iface, rule ∉ rules.plannedV4 iface →
    (fw .ipv4).count rule ≤ if host.permits .ipv6 .append rule ∧ host.permits .ipv4 .delete rule
      then 1 else 0

theorem install_counts {fw : NatTables} (named : rules.iface host = some iface)
    (fresh : rules.installed = []) (succeeded : (rules.install host fw).1 = true) (q : NatRule) :
    let both := (if q ∈ rules.plannedV4 iface then 1 else 0) +
      if q ∈ rules.plannedV6 host iface ∧ host.permits .ipv6 .append q then 1 else 0
    (rules.afterInstall host fw .ipv4).count q = (if q ∈ rules.plannedV4 iface then
        (fw .ipv4).count q - (if host.permits .ipv4 .delete q then 1 else 0) + 1
          else (fw .ipv4).count q) ∧
      (rules.afterInstall host fw .ipv6).count q = (fw .ipv6).count q +
        (if q ∈ rules.plannedV6 host iface ∧ host.permits .ipv6 .append q then 1 else 0) ∧
      ∀ family, (rules.afterRemove host fw family).count q =
        (rules.afterInstall host fw family).count q - if host.permits family .delete q then both
        else 0 := by
  intro both
  rcases ran : installV4 host (rules.plannedV4 iface) rules.installed fw
    with ⟨ok, installed, fw₁⟩
  cases ok with
  | false => simp [install, named, ran] at succeeded
  | true =>
      obtain ⟨recorded, other, counts⟩ := installV4_ok plannedV4_nodup ran
      have distinct : (rules.plannedV6 host iface).Nodup := rules.plannedV6_nodup
      obtain ⟨recorded', other', counts'⟩ := installV6_eq distinct installed fw₁
      have whole : rules.install host fw = (true,
          { rules with installed :=
            (installV6 host (rules.plannedV6 host iface) installed fw₁).1 },
          (installV6 host (rules.plannedV6 host iface) installed fw₁).2) := by
        simp [install, named, ran]
      have total : (installV6 host (rules.plannedV6 host iface) installed fw₁).1.count
        q = both := by
        rw [recorded', recorded, fresh, List.nil_append, List.count_append, plannedV4_nodup.count,
          (plannedV6_nodup.filter _).count]
        simp only [List.mem_filter, both]
      refine ⟨?_, ?_, fun family => ?_⟩
      · rw [afterInstall, whole, other', counts]
      · rw [afterInstall, whole, counts', other]
      · rw [afterRemove, afterInstall, whole, remove, count_removeAll, total]

/-- The bookkeeping of one rule: planned for IPv4 or IPv6 or both, added to IPv6 or not, and
    deletable from either table or not. -/
private theorem balance {in4 in6 add6 del4 del6 : Prop} [Decidable in4] [Decidable in6]
    [Decidable add6] [Decidable del4] [Decidable del6] {c4 c6 n4 n6 e4 e6 : Nat}
    (installed4 : n4 = if in4 then c4 - (if del4 then 1 else 0) + 1 else c4)
    (installed6 : n6 = c6 + if in6 ∧ add6 then 1 else 0)
    (removed4 : e4 = n4 - if del4 then (if in4 then 1 else 0) + (if in6 ∧ add6 then 1 else 0)
      else 0) (removed6 : e6 = n6 - if del6
      then (if in4 then 1 else 0) + (if in6 ∧ add6 then 1 else 0) else 0) :
    ((in4 → n4 = 1) ∧ (in6 → n6 = 1) ∧ (in4 ∨ in6 → e4 = 0 ∧ e6 = 0) ∧
      (¬ (in4 ∨ in6) → e4 = c4 ∧ e6 = c6)) ↔ (in4 → c4 ≤ 1 ∧ del4) ∧
    (in6 → del6 ∧ if add6 then c6 = 0 else c6 = 1 ∧ in4) ∧
    (in4 → ¬ in6 → c6 ≤ if del6 then 1 else 0) ∧
    (in6 → ¬ in4 → c4 ≤ if add6 ∧ del4 then 1 else 0) := by
  subst installed4 installed6 removed4 removed6
  by_cases planned4 : in4
  · by_cases planned6 : in6
    · by_cases added : add6 <;> by_cases deletes4 : del4 <;> by_cases deletes6 : del6 <;>
        simp [planned4, planned6, added, deletes4, deletes6] <;> omega
    · by_cases deletes4 : del4 <;> by_cases deletes6 : del6 <;>
        simp [planned4, planned6, deletes4, deletes6] <;> omega
  · by_cases planned6 : in6
    · by_cases added : add6 <;> by_cases deletes4 : del4 <;> by_cases deletes6 : del6 <;>
        simp [planned4, planned6, added, deletes4, deletes6] <;> omega
    · simp [planned4, planned6]

/-- After a successful installation of fresh rules, all is orderly exactly when the tables
    were clear. -/
theorem orderly_iff_clear {fw : NatTables} (named : rules.iface host = some iface)
    (fresh : rules.installed = []) (succeeded : (rules.install host fw).1 = true) :
    rules.Orderly host iface fw ↔ rules.Clear host iface fw := by
  have each := fun rule =>
    have counts := install_counts named fresh succeeded rule
    balance counts.1 counts.2.1 (counts.2.2 .ipv4) (counts.2.2 .ipv6)
  constructor
  · intro orderly
    have clear := fun rule => (each rule).mp ⟨orderly.once4 rule, orderly.once6 rule,
      fun planned => ⟨orderly.gone rule planned .ipv4, orderly.gone rule planned .ipv6⟩,
      fun other => ⟨orderly.kept rule other .ipv4, orderly.kept rule other .ipv6⟩⟩
    exact ⟨fun rule => (clear rule).1, fun rule => (clear rule).2.1, fun rule =>
      (clear rule).2.2.1, fun rule => (clear rule).2.2.2⟩
  · intro clear
    have orderly := fun rule => (each rule).mpr
      ⟨clear.v4 rule, clear.v6 rule, clear.stray6 rule, clear.stray4 rule⟩
    constructor
    · exact fun rule => (orderly rule).1
    · exact fun rule => (orderly rule).2.1
    · intro rule planned family
      cases family with
      | ipv4 => exact ((orderly rule).2.2.1 planned).1
      | ipv6 => exact ((orderly rule).2.2.1 planned).2
    · intro rule other family
      cases family with
      | ipv4 => exact ((orderly rule).2.2.2 other).1
      | ipv6 => exact ((orderly rule).2.2.2 other).2

/-- A host with IPv6 on which every command works. -/
def sampleHost : NatHost where
  ipv6Available := true
  defaultRouteIface := some "eth0"
  permits _ _ _ := true

/-- A server's rules, over empty tables. -/
theorem server_rules_orderly :
    (new (fun _ => some .ipv4) "10.7.0.0/24" "rustnies0" none).Orderly sampleHost "eth0"
    fun _ => [] :=
  (orderly_iff_clear rfl rfl rfl).mpr
    ⟨by simp [sampleHost], by simp [sampleHost], by simp, by simp⟩

/-- After a crash, a client's next installation finds its IPv6 rules there and adds them
    once more. -/
theorem crashed_rules_doubled : ¬ ∀ (host : NatHost) (rules : NatRules) (iface : String)
      (fw : NatTables), rules.iface host = some iface → rules.installed =
      [] → (rules.install host fw).1 = true → rules.Orderly host iface fw := by
  intro orderly
  have twice := (orderly sampleHost (newClient (fun _ => none) none "rustnies0") "rustnies0"
    ((newClient (fun _ => none) none "rustnies0").afterInstall sampleHost fun _ => []) rfl rfl
      (by decide)).once6 ⟨"filter", forwardSpec "-i" "rustnies0"⟩ (by decide)
  revert twice
  decide

end NatRules

end Rustnies
