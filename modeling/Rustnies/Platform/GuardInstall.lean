import Rustnies.Platform.FilterTable
import Mathlib.Tactic.Tauto

/-! # Installing and removing a guard

`KillSwitch::install` and `remove` over the two tables, from any state a crashed
run or another tool may have left. A chain operation stops at the IPv4 table when
it fails there, so the IPv6 table is cleaned only as far as the IPv4 table had the
same leftovers. The teardown is described once, on views (`teardown_spec`), and
used three times: before the chain is created, after a failed installation, and
at removal.
-/

namespace Rustnies

/-! ## Backends that simulate each other -/

section Simulation

variable {α β : Type} {runA : α → FirewallOp → Option α}
  {runB : β → FirewallOp → Option β} {f : α → β}

theorem IptablesBackend.exec_map {op : FirewallOp} (sim : ∀ a, (runA a op).map f = runB (f a) op)
    (s : α × α) : (IptablesBackend runB).exec (s.map f f) op =
      ((IptablesBackend runA).exec s op).map id (Prod.map f f) := by
  have first := sim s.1
  have second := sim s.2
  simp only [IptablesBackend, Prod.map_fst, Prod.map_snd, ← first, ← second]
  cases op.ruleFamily with
  | some family =>
      cases family with
      | ipv4 => cases runA s.1 op <;> rfl
      | ipv6 => cases runA s.2 op <;> rfl
  | none =>
      cases runA s.1 op with
      | none => rfl
      | some v4 => cases runA s.2 op <;> rfl

variable {ops : List FirewallOp} (sim : ∀ op ∈ ops, ∀ a, (runA a op).map f = runB (f a) op)
include sim

theorem IptablesBackend.applyFrom_map (i : Nat) (s : α × α) :
    (IptablesBackend runB).applyFrom i ops (s.map f f) =
      ((IptablesBackend runA).applyFrom i ops s).map id (Prod.map f f) := by
  induction ops generalizing i s with
  | nil => rfl
  | cons op ops ih =>
      simp only [FirewallBackend.applyFrom, exec_map (sim op List.mem_cons_self), Prod.map_fst,
        Prod.map_snd, id]
      split
      · exact ih (fun op' later => sim op' (List.mem_cons_of_mem _ later)) ..
      · rfl

theorem IptablesBackend.applyBestEffort_map (s : α × α) :
    (IptablesBackend runB).applyBestEffort ops (s.map f f) =
      ((IptablesBackend runA).applyBestEffort ops s).map f f := by
  induction ops generalizing s with
  | nil => rfl
  | cons op ops ih =>
      simp only [FirewallBackend.applyBestEffort, List.foldl_cons,
        exec_map (sim op List.mem_cons_self), Prod.map_snd]
      exact ih (fun op' later => sim op' (List.mem_cons_of_mem _ later)) _

end Simulation

/-- `iptables` and `ip6tables` over two tables of the kernel. -/
def netfilter : FirewallBackend (FilterTable × FilterTable) := IptablesBackend FilterTable.run

/-! ## The teardown, on views -/

namespace View

variable (chain : String)

/-- The commands on two views. -/
def backend : FirewallBackend (View × View) := IptablesBackend (View.run chain)

/-- How often `OUTPUT` jumps to the chain. -/
def jumps (v : View) : Nat := v.output.count (.jump chain)

variable {chain}

theorem jumps_pos {v : View} : .jump chain ∈ v.output ↔ 0 < v.jumps chain :=
  List.count_pos_iff.symm

theorem WellFormed.jumps {v : View} (wf : v.WellFormed chain) (missing : v.content = none) :
    v.jumps chain = 0 :=
  List.count_eq_zero.mpr (wf.output missing)

/-- A chain operation reaches the second view when it succeeds on the first. -/
private theorem exec_chain (op : FirewallOp) (isChain : op.ruleFamily = none) (v4 v6 : View) :
    ((backend chain).exec (v4, v6) op).2 =
      match v4.run chain op with
      | none => (v4, v6)
      | some u4 => (u4, (v6.run chain op).getD v6) := by
  simp only [backend, IptablesBackend, isChain]
  cases v4.run chain op with
  | none => rfl
  | some u4 => cases v6.run chain op <;> rfl

private theorem exec_unjump (v4 v6 : View) :
    ((backend chain).exec (v4, v6) (.unjump OUTPUT chain)).2 =
      if 0 < v4.jumps chain then
        ({ v4 with output := v4.output.erase (.jump chain) },
         { v6 with output := v6.output.erase (.jump chain) })
      else (v4, v6) := by
  simp only [exec_chain (.unjump OUTPUT chain) rfl, View.run, jumps_pos]
  by_cases first : 0 < v4.jumps chain
  · simp only [if_pos first]
    by_cases second : 0 < v6.jumps chain
    · simp only [if_pos second, Option.getD_some]
    · have absent : .jump chain ∉ v6.output := mt jumps_pos.mp second
      simp only [if_neg second, List.erase_of_not_mem absent, Option.getD_none]
  · simp only [if_neg first]

private theorem exec_flush (v4 v6 : View) :
    ((backend chain).exec (v4, v6) (.flushChain chain)).2 =
      if v4.content = none then (v4, v6)
      else ({ v4 with content := some [] }, { v6 with content := v6.content.map fun _ => [] }) := by
  simp only [exec_chain (.flushChain chain) rfl, View.run]
  cases first : v4.content with
  | none => rfl
  | some entries =>
      cases v6 with
      | mk content output foreign others => cases content <;> rfl

/-- The chain can be deleted. -/
def Deletable (chain : String) (v : View) : Prop :=
  v.content = some [] ∧ .jump chain ∉ v.output ∧ !v.foreign

instance (v : View) : Decidable (v.Deletable chain) :=
  inferInstanceAs (Decidable (_ ∧ _ ∧ _))

private theorem exec_delete (v4 v6 : View) :
    ((backend chain).exec (v4, v6) (.deleteChain chain)).2 =
      if v4.Deletable chain then
        ({ v4 with content := none }, if v6.Deletable chain
            then { v6 with content := none } else v6)
      else (v4, v6) := by
  have run : ∀ v : View, v.run chain (.deleteChain chain) =
      if v.Deletable chain then some { v with content := none } else none := fun _ => rfl
  simp only [exec_chain (.deleteChain chain) rfl, run]
  by_cases first : v4.Deletable chain
  · by_cases second : v6.Deletable chain
    · simp only [if_pos first, if_pos second, Option.getD_some]
    · simp only [if_pos first, if_neg second, Option.getD_none]
  · simp only [if_neg first]

/-- What the teardown of two views leaves. The second view loses a jump when the
    first had one, and its chain when the first lost its own. -/
structure Torn (chain : String) (v4 v6 u4 u6 : View) : Prop where
  jumps4 : u4.jumps chain = v4.jumps chain - 1
  jumps6 : u6.jumps chain = if v4.jumps chain = 0 then v6.jumps chain else v6.jumps chain - 1
  content4 : u4.content = none ↔
    v4.content = none ∨ (v4.jumps chain ≤ 1 ∧ v4.foreign = false)
  content6 : u6.content = none ↔ v6.content = none ∨
    (v4.content ≠ none ∧ v4.jumps chain ≤ 1 ∧ v4.foreign = false ∧
      u6.jumps chain = 0 ∧ v6.foreign = false)
  foreign4 : u4.foreign = v4.foreign
  foreign6 : u6.foreign = v6.foreign
  others4 : u4.others = v4.others
  others6 : u6.others = v6.others
  output4 : u4.output.filter (· ≠ .jump chain) = v4.output.filter (· ≠ .jump chain)
  output6 : u6.output.filter (· ≠ .jump chain) = v6.output.filter (· ≠ .jump chain)

private theorem jumps_erase (v : View) :
    View.jumps chain { v with output := v.output.erase (.jump chain) } = v.jumps chain - 1 :=
  List.count_erase_self

private theorem filter_erase (output : List Entry) :
    (output.erase (.jump chain)).filter (· ≠ .jump chain) = output.filter
    (· ≠ .jump chain) := by
  induction output with
  | nil => rfl
  | cons e output ih =>
      by_cases same : e = .jump chain
      · subst same
        simp
      · rw [List.erase_cons_tail (by simpa using same)]
        simp only [List.filter_cons, ih]

/-- Removing the jump. -/
private theorem unjump_spec (chain : String) (v4 v6 : View) :
    ∃ a4 a6, ((backend chain).exec (v4, v6) (.unjump OUTPUT chain)).2 =
      ({ v4 with output := a4 }, { v6 with output := a6 }) ∧
      a4.count (.jump chain) = v4.jumps chain - 1 ∧
      a6.count (.jump chain) = (if v4.jumps chain = 0 then v6.jumps chain
        else v6.jumps chain - 1) ∧ a4.filter (· ≠ .jump chain) = v4.output.filter
        (· ≠ .jump chain) ∧ a6.filter (· ≠ .jump chain) = v6.output.filter
        (· ≠ .jump chain) := by
  rw [exec_unjump]
  by_cases jumped : 0 < v4.jumps chain
  · refine ⟨_, _, if_pos jumped, jumps_erase v4, ?_, filter_erase _, filter_erase _⟩
    rw [if_neg (by omega)]
    exact jumps_erase v6
  · refine ⟨_, _, if_neg jumped, ?_, ?_, rfl, rfl⟩
    · rw [show v4.output.count (.jump chain) = v4.jumps chain from rfl]
      omega
    · rw [if_pos (by omega)]
      rfl

/-- Flushing and deleting the chain. -/
private theorem raze_spec (chain : String) (v4 v6 : View) :
    ∃ c4 c6, ((backend chain).exec ((backend chain).exec (v4, v6) (.flushChain chain)).2
        (.deleteChain chain)).2 = ({ v4 with content := c4 }, { v6 with content := c6 }) ∧
      (c4 = none ↔ v4.content = none ∨ (v4.jumps chain = 0 ∧ v4.foreign = false)) ∧
      (c6 = none ↔ v6.content = none ∨ (v4.content ≠ none ∧ v4.jumps chain = 0 ∧
        v4.foreign = false ∧ v6.jumps chain = 0 ∧ v6.foreign = false)) := by
  have unjumped : ∀ v : View, .jump chain ∉ v.output ↔ v.jumps chain = 0 := fun v => by
    rw [jumps_pos]
    omega
  rw [exec_flush]
  by_cases missing : v4.content = none
  · rw [if_pos missing, exec_delete, if_neg (by simp [Deletable, missing])]
    exact ⟨_, _, rfl, by simp [missing], by simp [missing]⟩
  · rw [if_neg missing, exec_delete]
    by_cases first : v4.jumps chain = 0 ∧ v4.foreign = false
    · rw [if_pos (by simpa [Deletable, unjumped] using first)]
      by_cases second : v6.content ≠ none ∧ v6.jumps chain = 0 ∧ v6.foreign = false
      · obtain ⟨present, second⟩ := second
        obtain ⟨entries, content⟩ := Option.ne_none_iff_exists'.mp present
        rw [if_pos (by simpa [Deletable, unjumped, content] using second)]
        exact ⟨_, _, rfl, by simp [first], by simp [missing, first, second]⟩
      · have blocked :
            ¬ View.Deletable chain { v6 with content := v6.content.map fun _ => [] } := by
          rintro ⟨present, absent, unreferenced⟩
          refine second ⟨fun none => by simp [none] at present, (unjumped v6).mp absent, ?_⟩
          simpa using unreferenced
        rw [if_neg blocked]
        refine ⟨_, _, rfl, by simp [first], ?_⟩
        simp only [Option.map_eq_none_iff]
        tauto
    · have blocked : ¬ View.Deletable chain { v4 with content := some [] } := by
        rintro ⟨-, absent, unreferenced⟩
        exact first ⟨(unjumped v4).mp absent, by simpa using unreferenced⟩
      rw [if_neg blocked]
      refine ⟨_, _, rfl, by simpa [missing] using first, ?_⟩
      simp only [Option.map_eq_none_iff]
      tauto

theorem teardown_spec (chain : String) (v4 v6 : View) :
    ∃ u4 u6, (backend chain).applyBestEffort (removeOps chain) (v4, v6) = (u4, u6) ∧
      Torn chain v4 v6 u4 u6 := by
  obtain ⟨a4, a6, unjumped, jumps4, jumps6, output4, output6⟩ := unjump_spec chain v4 v6
  obtain ⟨c4, c6, razed, content4, content6⟩ :=
    raze_spec chain { v4 with output := a4 } { v6 with output := a6 }
  refine ⟨{ v4 with output := a4, content := c4 },
    { v6 with output := a6, content := c6 }, ?_, ?_⟩
  · simp only [FirewallBackend.applyBestEffort, removeOps, List.foldl_cons, List.foldl_nil,
      unjumped, razed]
  · have once : a4.count (.jump chain) = 0 ↔ v4.jumps chain ≤ 1 := by omega
    exact {
      jumps4, jumps6, output4, output6
      content4 := by simpa only [jumps, once] using content4
      content6 := by simpa only [jumps, once] using content6
      foreign4 := rfl, foreign6 := rfl, others4 := rfl, others6 := rfl }

theorem Torn.wellFormed {v4 v6 u4 u6 : View} (torn : Torn chain v4 v6 u4 u6)
    (wf4 : v4.WellFormed chain) (wf6 : v6.WellFormed chain) :
    u4.WellFormed chain ∧ u6.WellFormed chain := by
  have absent : ∀ {v : View}, v.jumps chain = 0 → .jump chain ∉ v.output := fun none jumps =>
    absurd (jumps_pos.mp jumps) (by omega)
  have content4 := torn.content4
  have content6 := torn.content6
  have jumps4 := torn.jumps4
  have jumps6 := torn.jumps6
  refine ⟨⟨fun missing => absent ?_, fun missing => ?_⟩,
    ⟨fun missing => absent ?_, fun missing => ?_⟩⟩
  · rcases content4.mp missing with gone | ⟨once, -⟩
    · rw [jumps4, wf4.jumps gone]
    · omega
  · rw [torn.foreign4]
    rcases content4.mp missing with gone | ⟨-, unreferenced⟩
    · exact wf4.foreign gone
    · exact unreferenced
  · rcases content6.mp missing with gone | ⟨-, -, -, none, -⟩
    · rw [jumps6, wf6.jumps gone]
      simp
    · exact none
  · rw [torn.foreign6]
    rcases content6.mp missing with gone | ⟨-, -, -, -, unreferenced⟩
    · exact wf6.foreign gone
    · exact unreferenced

end View

/-- The entries that the rules of one family make. -/
def planned (rules : List FirewallRuleSpec) (family : FirewallFamily) : List Entry :=
  (rules.filter (·.family = family)).map .rule

namespace View

variable {chain : String}

private theorem exec_append (rule : FirewallRuleSpec) (v4 v6 : View) (e4 e6 : List Entry) :
    (backend chain).exec ({ v4 with content := some e4 }, { v6 with content := some e6 })
        (.append chain rule) =
      (true, { v4 with content := some (e4 ++ planned [rule] .ipv4) },
        { v6 with content := some (e6 ++ planned [rule] .ipv6) }) := by
  cases family : rule.family <;>
    simp [backend, IptablesBackend, FirewallOp.ruleFamily, View.run, planned, family]

/-- The required appends fill each chain with the rules of its family. -/
private theorem appends_spec (rules : List FirewallRuleSpec) (rest : List FirewallOp) (i : Nat)
    (v4 v6 : View) (e4 e6 : List Entry) :
    (backend chain).applyFrom i (rules.map (.append chain) ++ rest)
        ({ v4 with content := some e4 }, { v6 with content := some e6 }) =
      (backend chain).applyFrom (i + rules.length) rest
        ({ v4 with content := some (e4 ++ planned rules .ipv4) },
         { v6 with content := some (e6 ++ planned rules .ipv6) }) := by
  induction rules generalizing i e4 e6 with
  | nil => simp [planned]
  | cons rule rules ih =>
      have split : ∀ family, planned (rule :: rules) family =
          planned [rule] family ++ planned rules family := fun family => by
        simp only [planned, ← List.map_append, ← List.filter_append, List.singleton_append]
      simp only [List.map_cons, List.cons_append, FirewallBackend.applyFrom, exec_append, or_true,
        if_true, ih, split, List.append_assoc, List.length_cons, Nat.add_assoc, Nat.add_comm 1]

/-- The view after a successful installation. -/
def built (chain : String) (rules : List FirewallRuleSpec) (family : FirewallFamily) (v : View) :
    View :=
  { v with content := some (planned rules family), output := v.output ++ [.jump chain] }

/-- The required operations, from the state that the teardown leaves. -/
private theorem required_spec (rules : List FirewallRuleSpec) (u4 u6 : View) :
    (backend chain).applyFrom 3
        (.createChain chain :: (rules.map (.append chain) ++ [.jump OUTPUT chain])) (u4, u6) =
      if u4.content = none then
        if u6.content = none then (true, u4.built chain rules .ipv4, u6.built chain rules .ipv6)
        else (false, { u4 with content := some [] }, u6)
      else (false, u4, u6) := by
  rw [FirewallBackend.applyFrom]
  by_cases first : u4.content = none
  · by_cases second : u6.content = none
    · have created : (backend chain).exec (u4, u6) (.createChain chain) =
          (true, { u4 with content := some [] }, { u6 with content := some [] }) := by
        simp only [backend, IptablesBackend, FirewallOp.ruleFamily, View.run, if_pos first,
          if_pos second]
      simp only [created, or_true, if_true, appends_spec, if_pos first, if_pos second,
        FirewallBackend.applyFrom, List.nil_append]
      simp [backend, IptablesBackend, FirewallOp.ruleFamily, View.run, built]
    · have refused : (backend chain).exec (u4, u6) (.createChain chain) =
          (false, { u4 with content := some [] }, u6) := by
        simp only [backend, IptablesBackend, FirewallOp.ruleFamily, View.run, if_pos first,
          if_neg second]
      simp [refused, first, second]
  · have refused : (backend chain).exec (u4, u6) (.createChain chain) = (false, u4, u6) := by
      simp only [backend, IptablesBackend, FirewallOp.ruleFamily, View.run, if_neg first]
    simp [refused, first]

/-- The first three operations of an installation are a teardown. -/
private theorem applyRequired_eq {σ : Type} (backend : FirewallBackend σ)
    (rules : List FirewallRuleSpec) (s : σ) : backend.applyRequired (installOps chain rules) s =
      backend.applyFrom 3
      (.createChain chain :: (rules.map (.append chain) ++ [.jump OUTPUT chain]))
      (backend.applyBestEffort (removeOps chain) s) := by
  simp [FirewallBackend.applyRequired, installOps, FirewallBackend.applyFrom,
    FirewallBackend.applyBestEffort, removeOps]

/-- Neither the chain nor a jump to it. -/
def Absent (chain : String) (v : View) : Prop := v.content = none ∧ v.jumps chain = 0

/-- The chain holds the planned rules, and `OUTPUT` jumps to it once. -/
def Installed (chain : String) (rules : List FirewallRuleSpec) (family : FirewallFamily)
    (v : View) :
    Prop :=
  v.content = some (planned rules family) ∧ v.jumps chain = 1

/-- The leftovers that an installation gets rid of: no other chain jumps to the
    chain, and every jump of the IPv6 table has one of the IPv4 table beside it. -/
structure Ready (chain : String) (v4 v6 : View) : Prop where
  foreign4 : v4.foreign = false
  foreign6 : v6.foreign = false
  jumps6 : v6.jumps chain ≤ v4.jumps chain
  jumps4 : v4.jumps chain ≤ 2

theorem installed_built {u : View} (wf : u.WellFormed chain) (missing : u.content = none)
    (rules : List FirewallRuleSpec) (family : FirewallFamily) :
    (u.built chain rules family).Installed chain rules family := by
  refine ⟨rfl, ?_⟩
  have none : u.output.count (.jump chain) = 0 := wf.jumps missing
  simp [jumps, built, none]

/-- An installation tears down, and then either builds both chains or fails to
    create one and tears down again. -/
theorem install_spec (chain : String) (rules : List FirewallRuleSpec) (v4 v6 : View) :
    ∃ u4 u6, Torn chain v4 v6 u4 u6 ∧
      if u4.content = none ∧ u6.content = none then
        (Guard.new chain rules).install (backend chain) (v4, v6) =
          (true, { Guard.new chain rules with active := true },
            u4.built chain rules .ipv4, u6.built chain rules .ipv6)
      else ∃ x4 w4 w6, (x4 = if u4.content = none then { u4 with content := some [] } else u4) ∧
        Torn chain x4 u6 w4 w6 ∧
        (Guard.new chain rules).install (backend chain) (v4, v6) =
          (false, Guard.new chain rules, w4, w6) := by
  obtain ⟨u4, u6, tore, torn⟩ := teardown_spec chain v4 v6
  refine ⟨u4, u6, torn, ?_⟩
  have ran : (backend chain).applyRequired (Guard.new chain rules).ops (v4, v6) = _ :=
    applyRequired_eq (backend chain) rules (v4, v6)
  rw [tore, required_spec] at ran
  unfold Guard.install
  by_cases first : u4.content = none
  · by_cases second : u6.content = none
    · rw [if_pos first, if_pos second] at ran
      rw [if_pos ⟨first, second⟩, ran]
    · obtain ⟨w4, w6, again, tornAgain⟩ :=
        teardown_spec chain { u4 with content := some [] } u6
      rw [if_pos first, if_neg second] at ran
      rw [if_neg (not_and.mpr fun _ => second), ran]
      exact ⟨_, w4, w6, (if_pos first).symm, tornAgain, by simp only [Guard.new, again]⟩
  · obtain ⟨w4, w6, again, tornAgain⟩ := teardown_spec chain u4 u6
    rw [if_neg first] at ran
    rw [if_neg (not_and.mpr fun none => absurd none first), ran]
    exact ⟨_, w4, w6, (if_neg first).symm, tornAgain, by simp only [Guard.new, again]⟩

theorem Torn.ready {v4 v6 u4 u6 : View} (torn : Torn chain v4 v6 u4 u6)
    (wf4 : v4.WellFormed chain) (wf6 : v6.WellFormed chain) (missing4 : u4.content = none)
    (missing6 : u6.content = none) : Ready chain v4 v6 ∧ v4.jumps chain ≤ 1 := by
  have jumps6 := torn.jumps6
  have first : v4.jumps chain ≤ 1 ∧ v4.foreign = false := by
    rcases torn.content4.mp missing4 with gone | once
    · exact ⟨by rw [wf4.jumps gone]; omega, wf4.foreign gone⟩
    · exact once
  have second : v6.jumps chain ≤ v4.jumps chain ∧ v6.foreign = false := by
    rcases torn.content6.mp missing6 with gone | ⟨-, -, -, none, unreferenced⟩
    · exact ⟨by rw [wf6.jumps gone]; omega, wf6.foreign gone⟩
    · refine ⟨?_, unreferenced⟩
      rw [none] at jumps6
      split at jumps6 <;> omega
  exact ⟨⟨first.2, second.2, second.1, by omega⟩, first.1⟩

theorem Torn.absent_iff {v4 v6 u4 u6 x4 w4 w6 : View} (torn : Torn chain v4 v6 u4 u6)
    (wf4 : v4.WellFormed chain) (wf6 : v6.WellFormed chain)
    (failed : ¬ (u4.content = none ∧ u6.content = none))
    (partly : x4 = if u4.content = none then { u4 with content := some [] } else u4)
    (again : Torn chain x4 u6 w4 w6) :
    w4.Absent chain ∧ w6.Absent chain ↔ Ready chain v4 v6 := by
  obtain ⟨uwf4, uwf6⟩ := torn.wellFormed wf4 wf6
  have present : x4.content ≠ none := by
    rw [partly]
    split <;> simp_all
  have jumps : x4.jumps chain = u4.jumps chain := by
    rw [partly]
    split <;> rfl
  have foreign : x4.foreign = u4.foreign := by
    rw [partly]
    split <;> rfl
  have a1 := torn.jumps4
  have a2 := torn.jumps6
  have a3 := torn.content4
  have a4 := torn.content6
  have a5 := torn.foreign4
  have a6 := torn.foreign6
  have b1 := again.jumps4
  have b2 := again.jumps6
  have b3 := again.content4
  have b4 := again.content6
  have c1 := uwf4.jumps
  have c2 := uwf6.jumps
  have d1 := wf4.jumps
  have d2 := wf6.jumps
  have e1 := wf4.foreign
  have e2 := wf6.foreign
  rw [jumps, foreign, a5] at b3 b4
  rw [jumps] at b1 b2
  constructor
  · rintro ⟨⟨gone4, none4⟩, gone6, none6⟩
    constructor <;> grind
  · rintro ⟨f4, f6, j6, j4⟩
    refine ⟨⟨?_, ?_⟩, ?_, ?_⟩ <;> grind

theorem Torn.built_iff {v4 v6 u4 u6 : View} (torn : Torn chain v4 v6 u4 u6)
    (wf4 : v4.WellFormed chain) (wf6 : v6.WellFormed chain) :
    u4.content = none ∧ u6.content = none ↔ Ready chain v4 v6 ∧ v4.jumps chain ≤ 1 ∧
      (v4.content = none → v6.content = none) := by
  constructor
  · rintro ⟨missing4, missing6⟩
    obtain ⟨ready, once⟩ := torn.ready wf4 wf6 missing4 missing6
    refine ⟨ready, once, fun gone => ?_⟩
    rcases torn.content6.mp missing6 with missing | ⟨present, -⟩
    · exact missing
    · exact absurd gone present
  · rintro ⟨ready, once, both⟩
    have jumps6 := torn.jumps6
    have fewer := ready.jumps6
    refine ⟨torn.content4.mpr (.inr ⟨once, ready.foreign4⟩), torn.content6.mpr ?_⟩
    by_cases missing : v4.content = none
    · exact .inl (both missing)
    · refine .inr ⟨missing, once, ready.foreign4, ?_, ready.foreign6⟩
      split at jumps6 <;> omega

/-- Tearing down after a successful installation leaves nothing exactly when the
    jump of the IPv4 table is still there. -/
theorem Torn.absent_iff_jumped {v4 v6 u4 u6 : View} (torn : Torn chain v4 v6 u4 u6)
    (wf4 : v4.WellFormed chain) (foreign4 : v4.foreign = false)
    (foreign6 : v6.foreign = false) (once4 : v4.jumps chain ≤ 1) (once6 : v6.jumps chain ≤ 1)
    (other : v4.jumps chain = 0 → v6.jumps chain = 1) :
    u4.Absent chain ∧ u6.Absent chain ↔ v4.jumps chain = 1 := by
  have jumps4 := torn.jumps4
  have jumps6 := torn.jumps6
  constructor
  · rintro ⟨-, -, none⟩
    by_contra cleared
    have zero : v4.jumps chain = 0 := by omega
    rw [if_pos zero, other zero, none] at jumps6
    cases jumps6
  · intro jumped
    have present : v4.content ≠ none := fun missing => by
      have := wf4.jumps missing
      omega
    rw [if_neg (by omega)] at jumps6
    have none6 : u6.jumps chain = 0 := by omega
    exact ⟨⟨torn.content4.mpr (.inr ⟨once4, foreign4⟩), by omega⟩,
      torn.content6.mpr (.inr ⟨present, once4, foreign4, none6, foreign6⟩), none6⟩

end View

/-! ## The tables -/

theorem installOps_owned (chain : String) (rules : List FirewallRuleSpec) :
    ∀ op ∈ installOps chain rules, op.Owned chain := by
  intro op inside
  simp only [installOps, List.cons_append, List.nil_append, List.mem_cons, List.mem_append,
    List.mem_map, List.not_mem_nil, or_false] at inside
  rcases inside with rfl | rfl | rfl | rfl | ⟨rule, -, rfl⟩ | rfl
  · exact .unjump
  · exact .flush
  · exact .delete
  · exact .create
  · exact .append rule
  · exact .jump

theorem removeOps_owned (chain : String) : ∀ op ∈ removeOps chain, op.Owned chain := by
  intro op inside
  simp only [removeOps, List.mem_cons, List.not_mem_nil, or_false] at inside
  rcases inside with rfl | rfl | rfl
  · exact .unjump
  · exact .flush
  · exact .delete

namespace FilterTable

variable {chain : String}

/-- The two tables as seen from the chain. -/
def views (chain : String) (tables : FilterTable × FilterTable) : View × View :=
  tables.map (view chain) (view chain)

theorem teardown_views (notOutput : chain ≠ OUTPUT) (tables : FilterTable × FilterTable) :
    views chain (netfilter.applyBestEffort (removeOps chain) tables) =
      (View.backend chain).applyBestEffort (removeOps chain) (views chain tables) :=
  (IptablesBackend.applyBestEffort_map
    (fun op inside table => run_view (removeOps_owned chain op inside) notOutput table) tables).symm

theorem install_views (notOutput : chain ≠ OUTPUT) (rules : List FirewallRuleSpec)
    (tables : FilterTable × FilterTable) :
    (Guard.new chain rules).install (View.backend chain) (views chain tables) =
      ((Guard.new chain rules).install netfilter tables).map id (Prod.map id (views chain)) := by
  have required : (View.backend chain).applyRequired (installOps chain rules) (views chain tables) =
      (netfilter.applyRequired (installOps chain rules) tables).map id (views chain) :=
    IptablesBackend.applyFrom_map
      (fun op inside table => run_view (installOps_owned chain rules op inside) notOutput table) 0
        tables
  simp only [Guard.install, Guard.new, required]
  cases netfilter.applyRequired (installOps chain rules) tables with
  | mk ok after =>
      cases ok with
      | true => rfl
      | false =>
          simp only [Prod.map_apply, id, ← teardown_views notOutput]

end FilterTable

/-! ## Rules cleared from outside -/

/-- What another tool may do to one family: `-F <chain>`, `-F`, or `-F` and `-X`. -/
inductive Clearing where
  | chainFlushed
  | allFlushed
  | allDeleted
  deriving Repr, DecidableEq

def BUILTIN_CHAINS : List String := ["INPUT", "FORWARD", OUTPUT]

namespace Chains

def flushAll (chains : Chains) : Chains where
  entries := chains.entries.map fun e => ⟨e.1, []⟩
  nodupKeys := by
    have keys : (chains.entries.map fun e =>
      (⟨e.1, []⟩ : Sigma fun _ : String => List Entry)).keys =
        chains.entries.keys := by
      simp [List.keys, Function.comp_def]
    rw [List.NodupKeys, keys]
    exact chains.nodupKeys

theorem mem_flushAll {chains : Chains} {chain : String} :
    chain ∈ chains.flushAll ↔ chain ∈ chains := by
  simp [AList.mem_keys, AList.keys, flushAll, List.keys, Function.comp_def]

theorem lookup_flushAll {chains : Chains} {chain : String} {entries : List Entry}
    (found : AList.lookup chain chains.flushAll = some entries) : entries = [] := by
  have inside := AList.mem_lookup_iff.mp found
  simp only [flushAll, List.mem_map] at inside
  obtain ⟨e, -, same⟩ := inside
  cases same
  rfl

end Chains

namespace FilterTable

variable {chain : String}

def clear (chain : String) (table : FilterTable) : Clearing → FilterTable
  | .chainFlushed => (table.run (.flushChain chain)).getD table
  | .allFlushed =>
      { chains := table.chains.flushAll
        wellFormed := {
          output := Chains.mem_flushAll.mpr table.wellFormed.output
          closed := by
            intro source entries target found jumps
            rw [Chains.lookup_flushAll found] at jumps
            cases jumps } }
  | .allDeleted =>
      { chains := Table.retain (fun name _ => name ∈ BUILTIN_CHAINS) table.chains.flushAll
        wellFormed := {
          output := by
            obtain ⟨entries, found⟩ := Chains.mem_iff_lookup.mp
              (Chains.mem_flushAll.mpr table.wellFormed.output)
            exact Chains.mem_iff_lookup.mpr
              ⟨entries, Table.lookup_retain_eq_some.mpr ⟨found, by decide⟩⟩
          closed := by
            intro source entries target found jumps
            rw [Chains.lookup_flushAll (Table.lookup_retain_eq_some.mp found).1] at jumps
            cases jumps } }

theorem view_clear (notOutput : chain ≠ OUTPUT) (table : FilterTable) (clearing : Clearing) :
    (table.view chain).foreign = false →
    ((table.clear chain clearing).view chain).foreign = false ∧
    ((table.clear chain clearing).view chain).jumps chain =
      if clearing = .chainFlushed then (table.view chain).jumps chain else 0 := by
  intro unreferenced
  -- a table without entries has neither jumps nor references
  have emptied : ∀ cleared : FilterTable,
      (∀ name entries, AList.lookup name cleared.chains = some entries → entries = []) →
      (cleared.view chain).foreign = false ∧ (cleared.view chain).jumps chain = 0 := by
    intro cleared none
    constructor
    · by_contra foreign
      obtain ⟨name, entries, found, jumps⟩ := view_foreign_iff.mp (by simpa using foreign)
      simp only [view] at found
      split at found
      · cases found
      · rw [none name entries found] at jumps
        cases jumps
    · rw [View.jumps, none OUTPUT _ (cleared.lookup_output chain)]
      rfl
  cases clearing with
  | chainFlushed =>
      have ran := run_view FirewallOp.Owned.flush notOutput table
      rw [if_pos rfl, clear]
      cases flushed : table.run (.flushChain chain) with
      | none => exact ⟨unreferenced, rfl⟩
      | some after =>
          rw [flushed, Option.map_some, View.run] at ran
          obtain ⟨entries, -, same⟩ := Option.map_eq_some_iff.mp ran.symm
          rw [Option.getD_some, ← same]
          exact ⟨unreferenced, rfl⟩
  | allFlushed => exact emptied _ fun name entries found => Chains.lookup_flushAll found
  | allDeleted =>
      exact emptied _ fun name entries found =>
        Chains.lookup_flushAll (Table.lookup_retain_eq_some.mp found).1

/-- The clearing of one family, or of none. -/
def clearFamily (chain : String) (tables : FilterTable × FilterTable) :
    Option (FirewallFamily × Clearing) → FilterTable × FilterTable
  | none => tables
  | some (.ipv4, clearing) => (tables.1.clear chain clearing, tables.2)
  | some (.ipv6, clearing) => (tables.1, tables.2.clear chain clearing)

end FilterTable

/-! ## The guards of the program -/

/-- The two guards. -/
inductive Protection where
  | killSwitch (server : SocketAddr) (tunName : String)
  | dnsLeakGuard (tunName : String)
  deriving Repr, DecidableEq

namespace Protection

def chain : Protection → String
  | .killSwitch _ _ => KS_CHAIN
  | .dnsLeakGuard _ => DNS_CHAIN

def rules : Protection → List FirewallRuleSpec
  | .killSwitch server tunName => ksRules server tunName
  | .dnsLeakGuard tunName => dnsRules tunName

def guard : Protection → Guard
  | .killSwitch server tunName => KillSwitch.new server tunName
  | .dnsLeakGuard tunName => DnsLeakGuard.new tunName

theorem guard_eq (p : Protection) : p.guard = Guard.new p.chain p.rules := by
  cases p <;> rfl

theorem chain_ne_output (p : Protection) : p.chain ≠ OUTPUT := by
  cases p <;> simp only [chain] <;> decide

theorem install_succeeded (p : Protection) {tables after : FilterTable × FilterTable}
    {guard : Guard} (installed : p.guard.install netfilter tables = (true, guard, after)) :
    ∃ u4 u6, View.Torn p.chain (tables.1.view p.chain) (tables.2.view p.chain) u4 u6 ∧
      (u4.content = none ∧ u6.content = none) ∧
      after.1.view p.chain = u4.built p.chain p.rules .ipv4 ∧
      after.2.view p.chain = u6.built p.chain p.rules .ipv6 := by
  obtain ⟨u4, u6, torn, outcome⟩ := View.install_spec p.chain p.rules
    (tables.1.view p.chain) (tables.2.view p.chain)
  have views := FilterTable.install_views p.chain_ne_output p.rules tables
  rw [← guard_eq, installed] at views
  refine ⟨u4, u6, torn, ?_⟩
  rw [← guard_eq] at outcome
  split at outcome
  · rename_i both
    have same := views.symm.trans outcome
    simp only [FilterTable.views, Prod.map_apply, Prod.mk.injEq, id] at same
    exact ⟨both, congrArg Prod.fst same.2.2, congrArg Prod.snd same.2.2⟩
  · obtain ⟨x4, w4, w6, -, -, outcome⟩ := outcome
    cases (Prod.mk.inj (views.symm.trans outcome)).1

theorem install_succeeds (p : Protection) (tables : FilterTable × FilterTable)
    (missing4 : p.chain ∉ tables.1.chains) (missing6 : p.chain ∉ tables.2.chains) :
    ∃ guard after, p.guard.install netfilter tables = (true, guard, after) := by
  have wf4 := tables.1.view_wellFormed p.chain
  have wf6 := tables.2.view_wellFormed p.chain
  have content4 : (tables.1.view p.chain).content = none := AList.lookup_eq_none.mpr missing4
  have content6 : (tables.2.view p.chain).content = none := AList.lookup_eq_none.mpr missing6
  have jumps4 := wf4.jumps content4
  have jumps6 := wf6.jumps content6
  have ready : View.Ready p.chain (tables.1.view p.chain) (tables.2.view p.chain) :=
    ⟨wf4.foreign content4, wf6.foreign content6, by omega, by omega⟩
  obtain ⟨u4, u6, torn, outcome⟩ := View.install_spec p.chain p.rules
    (tables.1.view p.chain) (tables.2.view p.chain)
  rw [if_pos ((torn.built_iff wf4 wf6).mpr ⟨ready, by omega, fun _ => content6⟩)] at outcome
  have views := (FilterTable.install_views p.chain_ne_output p.rules tables).symm.trans outcome
  have ok : ((Guard.new p.chain p.rules).install netfilter tables).1 = true :=
    congrArg Prod.fst views
  rw [guard_eq]
  exact ⟨_, _, Prod.ext ok rfl⟩

/-- Installation over `tables`, then the clearing of a family, then removal: either
    both families are as planned and later as before, or the installation fails and
    leaves nothing. -/
def InstallsCleanly (p : Protection) (tables : FilterTable × FilterTable)
    (cleared : Option (FirewallFamily × Clearing)) : Prop :=
  let (ok, guard, after) := p.guard.install netfilter tables
  let left := (guard.remove netfilter (FilterTable.clearFamily p.chain after cleared)).2
  if ok then
    ((after.1.view p.chain).Installed p.chain p.rules .ipv4 ∧
      (after.2.view p.chain).Installed p.chain p.rules .ipv6) ∧
    (left.1.view p.chain).Absent p.chain ∧ (left.2.view p.chain).Absent p.chain
  else (after.1.view p.chain).Absent p.chain ∧ (after.2.view p.chain).Absent p.chain

/-- The clearing takes the jump out of the IPv4 table. -/
def DropsIpv4Jump (cleared : Option (FirewallFamily × Clearing)) : Prop :=
  ∃ clearing, cleared = some (.ipv4, clearing) ∧ clearing ≠ .chainFlushed

/-- Removal after a successful installation leaves nothing exactly when the jump of
    the IPv4 table has not been cleared. -/
private theorem removed_iff (p : Protection) (after : FilterTable × FilterTable)
    (foreign4 : (after.1.view p.chain).foreign = false)
    (foreign6 : (after.2.view p.chain).foreign = false)
    (jumps4 : (after.1.view p.chain).jumps p.chain = 1)
    (jumps6 : (after.2.view p.chain).jumps p.chain = 1)
    (cleared : Option (FirewallFamily × Clearing)) :
    let left := netfilter.applyBestEffort (removeOps p.chain)
      (FilterTable.clearFamily p.chain after cleared)
    (left.1.view p.chain).Absent p.chain ∧ (left.2.view p.chain).Absent p.chain ↔
      ¬ DropsIpv4Jump cleared := by
  intro left
  have notOutput := p.chain_ne_output
  obtain ⟨z4, z6, tore, torn⟩ := View.teardown_spec p.chain
    ((FilterTable.clearFamily p.chain after cleared).1.view p.chain)
    ((FilterTable.clearFamily p.chain after cleared).2.view p.chain)
  have views : (left.1.view p.chain, left.2.view p.chain) = (z4, z6) :=
    (FilterTable.teardown_views notOutput _).trans tore
  obtain ⟨same4, same6⟩ := Prod.mk.inj views
  rw [same4, same6]
  have wf := FilterTable.view_wellFormed p.chain
  cases cleared with
  | none =>
      rw [torn.absent_iff_jumped (wf _) foreign4 foreign6 (Nat.le_of_eq jumps4)
        (Nat.le_of_eq jumps6) (fun _ => jumps6)]
      simp [DropsIpv4Jump, FilterTable.clearFamily, jumps4]
  | some which =>
      obtain ⟨family, clearing⟩ := which
      cases family with
      | ipv4 =>
          obtain ⟨unreferenced, jumps⟩ := after.1.view_clear notOutput clearing foreign4
          have few : ((after.1.clear p.chain clearing).view p.chain).jumps p.chain ≤ 1 := by
            rw [jumps]
            split <;> omega
          rw [torn.absent_iff_jumped (wf _) unreferenced foreign6 few (Nat.le_of_eq jumps6)
            (fun _ => jumps6)]
          simp only [FilterTable.clearFamily, jumps, DropsIpv4Jump, jumps4]
          by_cases kept : clearing = .chainFlushed <;> simp [kept]
      | ipv6 =>
          obtain ⟨unreferenced, jumps⟩ := after.2.view_clear notOutput clearing foreign6
          have few : ((after.2.clear p.chain clearing).view p.chain).jumps p.chain ≤ 1 := by
            rw [jumps]
            split <;> omega
          rw [torn.absent_iff_jumped (wf _) foreign4 unreferenced (Nat.le_of_eq jumps4) few
            (fun none => absurd (jumps4.symm.trans none) (by decide))]
          simp [DropsIpv4Jump, FilterTable.clearFamily, jumps4]

/-- Which leftovers an installation and a later removal get rid of. -/
theorem installs_cleanly_iff (p : Protection) (tables : FilterTable × FilterTable)
    (cleared : Option (FirewallFamily × Clearing)) :
    p.InstallsCleanly tables cleared ↔
      View.Ready p.chain (tables.1.view p.chain) (tables.2.view p.chain) ∧
      (DropsIpv4Jump cleared → (tables.1.view p.chain).jumps p.chain = 2 ∨
        (p.chain ∉ tables.1.chains ∧ p.chain ∈ tables.2.chains)) := by
  have notOutput := p.chain_ne_output
  have wf4 := tables.1.view_wellFormed p.chain
  have wf6 := tables.2.view_wellFormed p.chain
  have missing : ∀ table : FilterTable, (table.view p.chain).content = none ↔
    p.chain ∉ table.chains :=
    fun _ => AList.lookup_eq_none
  obtain ⟨u4, u6, torn, outcome⟩ := View.install_spec p.chain p.rules
    (tables.1.view p.chain) (tables.2.view p.chain)
  have built := torn.built_iff wf4 wf6
  rw [InstallsCleanly, guard_eq]
  have views := FilterTable.install_views notOutput p.rules tables
  generalize (Guard.new p.chain p.rules).install netfilter tables = result at views ⊢
  obtain ⟨ok, guard, after⟩ := result
  split at outcome
  · rename_i both
    obtain ⟨ready, once, together⟩ := built.mp both
    obtain ⟨uwf4, uwf6⟩ := torn.wellFormed wf4 wf6
    obtain ⟨succeeded, sameGuard, after4, after6⟩ : ok = true ∧
        guard = { Guard.new p.chain p.rules with active := true } ∧
        after.1.view p.chain = u4.built p.chain p.rules .ipv4 ∧
        after.2.view p.chain = u6.built p.chain p.rules .ipv6 := by
      have same := views.symm.trans outcome
      simpa [FilterTable.views, Prod.ext_iff] using same
    have planned4 := View.installed_built uwf4 both.1 p.rules .ipv4
    have planned6 := View.installed_built uwf6 both.2 p.rules .ipv6
    rw [← after4] at planned4
    rw [← after6] at planned6
    have removed := p.removed_iff after
      (by rw [after4]; exact torn.foreign4.trans ready.foreign4)
      (by rw [after6]; exact torn.foreign6.trans ready.foreign6) planned4.2 planned6.2 cleared
    simp only [succeeded, if_true, planned4, planned6, true_and, ready, sameGuard, Guard.remove,
      Bool.not_true, Bool.false_eq_true, if_false, Guard.new, removed]
    refine ⟨fun kept drops => absurd drops kept, fun refused drops => ?_⟩
    rcases refused drops with twice | ⟨gone, present⟩
    · omega
    · exact absurd ((missing tables.2).mp (together ((missing tables.1).mpr gone)))
        (not_not.mpr present)
  · rename_i failed
    obtain ⟨x4, w4, w6, partly, again, outcome⟩ := outcome
    obtain ⟨refused, after4, after6⟩ : ok = false ∧
        after.1.view p.chain = w4 ∧ after.2.view p.chain = w6 := by
      have same := views.symm.trans outcome
      simp only [Prod.ext_iff] at same
      exact ⟨same.1, same.2.2.1, same.2.2.2⟩
    simp only [refused, Bool.false_eq_true, if_false, after4, after6,
      torn.absent_iff wf4 wf6 failed partly again]
    refine ⟨fun ready => ⟨ready, fun _ => ?_⟩, And.left⟩
    by_contra neither
    rw [not_or, not_and] at neither
    have few := ready.jumps4
    refine failed (built.mpr ⟨ready, by omega, fun gone => ?_⟩)
    exact (missing tables.2).mpr (neither.2 ((missing tables.1).mp gone))

/-- A table without rules. -/
def fresh : FilterTable where
  chains := AList.insert OUTPUT [] ∅
  wellFormed := {
    output := by decide
    closed := by
      intro source entries target found jumps
      by_cases isOutput : source = OUTPUT
      · subst isOutput
        rw [AList.lookup_insert] at found
        cases found
        cases jumps
      · rw [AList.lookup_insert_ne isOutput] at found
        cases found }

/-- The table of a run that was killed: its chain is there, and jumped to. -/
def leftover : FilterTable :=
  ((fresh.run (.createChain KS_CHAIN)).bind fun table => table.run (.jump OUTPUT KS_CHAIN)).getD
    fresh

/-- The leftovers of the IPv6 table alone: the installation fails and leaves them. -/
theorem leftover_survives_install :
    let p := killSwitch ⟨.v4 0x01020304, 51820⟩ "tun0"
    let result := p.guard.install netfilter (fresh, leftover)
    result.1 = false ∧ KS_CHAIN ∈ result.2.2.2.chains ∧
      ¬ p.InstallsCleanly (fresh, leftover) none := by
  refine ⟨by decide, by decide, fun clean => ?_⟩
  exact absurd clean.2.2 (by decide)

end Protection

end Rustnies
