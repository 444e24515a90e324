import Rustnies.Platform.Firewall

/-! # One filter table of the kernel

What `iptables` (or `ip6tables`) does to its table. A command fails when the
object it names is missing, when a chain to create exists, and when a chain to
delete still holds entries or is jumped to. A table is closed under jumps: the
kernel refuses a jump to a chain that does not exist.

The program touches one chain of its own and the jumps from `OUTPUT` to it. What
it does is therefore seen in a `View`: the content of the chain, the entries of
`OUTPUT`, and whether some other chain jumps to it. `run_view` says that running
an operation and taking the view commute.
-/

namespace Rustnies

namespace Chains

/-- A jump leads to a chain that exists, and so does `OUTPUT`. -/
structure WellFormed (chains : Chains) : Prop where
  output : OUTPUT ∈ chains
  closed : ∀ chain entries target, AList.lookup chain chains = some entries →
    .jump target ∈ entries → target ∈ chains

/-- Whether some chain jumps to `target`. -/
def referenced (chains : Chains) (target : String) : Bool :=
  chains.entries.any fun e => e.2.contains (.jump target)

/-- One command on one table. -/
def run (chains : Chains) : FirewallOp → Option Chains
  | .createChain chain => if chain ∈ chains then none else some (AList.insert chain [] chains)
  | .flushChain chain => if chain ∈ chains then some (AList.insert chain [] chains) else none
  | .deleteChain chain =>
      if chain ≠ OUTPUT ∧ AList.lookup chain chains = some [] ∧ !chains.referenced chain then
        some (AList.erase chain chains)
      else none
  | .append chain rule =>
      (AList.lookup chain chains).map fun entries =>
        AList.insert chain (entries ++ [.rule rule]) chains
  | .delete chain rule =>
      (AList.lookup chain chains).bind fun entries =>
        if .rule rule ∈ entries then some (AList.insert chain (entries.erase (.rule rule)) chains)
        else none
  | .jump source target =>
      if target ∈ chains then
        (AList.lookup source chains).map fun entries =>
          AList.insert source (entries ++ [.jump target]) chains
      else none
  | .unjump source target =>
      (AList.lookup source chains).bind fun entries =>
        if .jump target ∈ entries then
          some (AList.insert source (entries.erase (.jump target)) chains)
        else none

theorem mem_iff_lookup {chains : Chains} {chain : String} :
    chain ∈ chains ↔ ∃ entries, AList.lookup chain chains = some entries := by
  rw [← AList.lookup_isSome, Option.isSome_iff_exists]

theorem referenced_iff {chains : Chains} {target : String} :
    chains.referenced target ↔
      ∃ chain entries, AList.lookup chain chains = some entries ∧ .jump target ∈ entries := by
  simp only [referenced, List.any_eq_true, List.contains_iff_mem]
  constructor
  · rintro ⟨⟨chain, entries⟩, inside, jumps⟩
    exact ⟨chain, entries, AList.mem_lookup_iff.mpr inside, jumps⟩
  · rintro ⟨chain, entries, found, jumps⟩
    exact ⟨⟨chain, entries⟩, AList.mem_lookup_iff.mp found, jumps⟩

theorem WellFormed.insert {chains : Chains} (wf : chains.WellFormed) {chain : String}
    {entries : List Entry}
    (targets : ∀ target, .jump target ∈ entries → target = chain ∨ target ∈ chains) :
    Chains.WellFormed (AList.insert chain entries chains) where
  output := (AList.mem_insert chains).mpr (.inr wf.output)
  closed := by
    intro source found target isFound jumps
    rw [AList.mem_insert]
    by_cases same : source = chain
    · subst same
      rw [AList.lookup_insert] at isFound
      cases isFound
      exact targets target jumps
    · rw [AList.lookup_insert_ne same] at isFound
      exact .inr (wf.closed source found target isFound jumps)

theorem WellFormed.run {chains chains' : Chains} (wf : chains.WellFormed) {op : FirewallOp}
    (ran : chains.run op = some chains') : chains'.WellFormed := by
  cases op with
  | createChain chain =>
      simp only [Chains.run] at ran
      split at ran
      · cases ran
      · cases ran
        exact wf.insert (by simp)
  | flushChain chain =>
      simp only [Chains.run] at ran
      split at ran
      · cases ran
        exact wf.insert (by simp)
      · cases ran
  | deleteChain chain =>
      simp only [Chains.run] at ran
      split at ran
      · rename_i allowed
        obtain ⟨notOutput, -, unreferenced⟩ := allowed
        cases ran
        constructor
        · exact AList.mem_erase.mpr ⟨notOutput.symm, wf.output⟩
        · intro source entries target found jumps
          have notErased : source ≠ chain := by
            rintro rfl
            simp [AList.lookup_erase] at found
          rw [AList.lookup_erase_ne notErased] at found
          refine AList.mem_erase.mpr ⟨?_, wf.closed source entries target found jumps⟩
          rintro rfl
          simp [referenced_iff.mpr ⟨source, entries, found, jumps⟩] at unreferenced
      · cases ran
  | append chain rule =>
      simp only [Chains.run, Option.map_eq_some_iff] at ran
      obtain ⟨entries, found, rfl⟩ := ran
      refine wf.insert fun target jumps => .inr (wf.closed chain entries target found ?_)
      simpa using jumps
  | delete chain rule =>
      simp only [Chains.run, Option.bind_eq_some_iff] at ran
      obtain ⟨entries, found, ran⟩ := ran
      split at ran
      · cases ran
        exact wf.insert fun target jumps =>
          .inr (wf.closed chain entries target found (List.mem_of_mem_erase jumps))
      · cases ran
  | jump source dest =>
      simp only [Chains.run] at ran
      split at ran
      · rename_i exists_
        simp only [Option.map_eq_some_iff] at ran
        obtain ⟨entries, found, rfl⟩ := ran
        refine wf.insert fun target jumps => .inr ?_
        rcases List.mem_append.mp jumps with old | new
        · exact wf.closed source entries target found old
        · cases List.mem_singleton.mp new
          exact exists_
      · cases ran
  | unjump source dest =>
      simp only [Chains.run, Option.bind_eq_some_iff] at ran
      obtain ⟨entries, found, ran⟩ := ran
      split at ran
      · cases ran
        exact wf.insert fun target jumps =>
          .inr (wf.closed source entries target found (List.mem_of_mem_erase jumps))
      · cases ran

end Chains

/-- A table the kernel can hold. -/
structure FilterTable where
  chains : Chains
  wellFormed : chains.WellFormed

namespace FilterTable

def run (table : FilterTable) (op : FirewallOp) : Option FilterTable :=
  match ran : table.chains.run op with
  | some chains => some ⟨chains, table.wellFormed.run ran⟩
  | none => none

end FilterTable

/-! ## What concerns one chain -/

/-- The operations on `chain` and on the jumps from `OUTPUT` to it. -/
inductive FirewallOp.Owned (chain : String) : FirewallOp → Prop where
  | unjump : Owned chain (.unjump OUTPUT chain)
  | flush : Owned chain (.flushChain chain)
  | delete : Owned chain (.deleteChain chain)
  | create : Owned chain (.createChain chain)
  | append (rule : FirewallRuleSpec) : Owned chain (.append chain rule)
  | jump : Owned chain (.jump OUTPUT chain)

/-- A table as seen from `chain`. -/
structure View where
  content : Option (List Entry)
  output : List Entry
  /-- Whether a chain other than `OUTPUT` and the chain itself jumps to it. -/
  foreign : Bool
  others : String → Option (List Entry)

/-- The chain is missing only when nothing jumps to it. -/
structure View.WellFormed (chain : String) (v : View) : Prop where
  output : v.content = none → .jump chain ∉ v.output
  foreign : v.content = none → v.foreign = false

/-- The owned operations, on the view. -/
def View.run (chain : String) (v : View) : FirewallOp → Option View
  | .unjump _ _ =>
      if .jump chain ∈ v.output then
        some { v with output := v.output.erase (.jump chain) } else none
  | .flushChain _ => v.content.map fun _ => { v with content := some [] }
  | .deleteChain _ =>
      if v.content = some [] ∧ .jump chain ∉ v.output ∧ !v.foreign then
        some { v with content := none }
      else none
  | .createChain _ => if v.content = none then some { v with content := some [] } else none
  | .append _ rule => v.content.map fun es => { v with content := some (es ++ [.rule rule]) }
  | .jump _ _ =>
      if v.content = none then none else some { v with output := v.output ++ [.jump chain] }
  | .delete _ _ => none

namespace FilterTable

variable {chain : String}

def output (table : FilterTable) : List Entry := (AList.lookup OUTPUT table.chains).getD []

def view (chain : String) (table : FilterTable) : View where
  content := AList.lookup chain table.chains
  output := table.output
  foreign := table.chains.entries.any fun e =>
    e.1 ≠ OUTPUT ∧ e.1 ≠ chain ∧ .jump chain ∈ e.2
  others name := if name = OUTPUT ∨ name = chain then none else AList.lookup name table.chains

theorem view_foreign_iff {table : FilterTable} :
    (table.view chain).foreign ↔
      ∃ name entries, (table.view chain).others name = some entries ∧
      .jump chain ∈ entries := by
  simp only [view, List.any_eq_true, decide_eq_true_eq]
  constructor
  · rintro ⟨⟨name, entries⟩, inside, notOutput, notOwn, jumps⟩
    refine ⟨name, entries, ?_, jumps⟩
    rw [if_neg (by simp [notOutput, notOwn])]
    exact AList.mem_lookup_iff.mpr inside
  · rintro ⟨name, entries, found, jumps⟩
    split at found
    · cases found
    · rename_i foreign
      rw [not_or] at foreign
      exact ⟨⟨name, entries⟩, AList.mem_lookup_iff.mp found, foreign.1, foreign.2, jumps⟩

theorem view_eq {table : FilterTable} {v : View}
    (content : AList.lookup chain table.chains = v.content)
    (output : AList.lookup OUTPUT table.chains = some v.output)
    (others : ∀ name, name ≠ OUTPUT → name ≠ chain →
      AList.lookup name table.chains = v.others name)
    (before : FilterTable) (foreign : v.foreign = (before.view chain).foreign)
    (same : v.others = (before.view chain).others) : table.view chain = v := by
  have sameOthers : (table.view chain).others = v.others := by
    funext name
    simp only [view]
    split
    · rename_i own
      rw [same]
      simp only [view, if_pos own]
    · rename_i foreign
      rw [not_or] at foreign
      exact others name foreign.1 foreign.2
  have sameForeign : (table.view chain).foreign = v.foreign := by
    rw [Bool.eq_iff_iff, view_foreign_iff, sameOthers, foreign, view_foreign_iff, same]
  cases v with
  | mk c o f os =>
      simp only at sameOthers sameForeign content output
      rw [← sameOthers, ← sameForeign]
      simp only [view, FilterTable.output, content, output, Option.getD_some]

theorem lookup_output (chain : String) (table : FilterTable) :
    AList.lookup OUTPUT table.chains = some (table.view chain).output := by
  obtain ⟨entries, found⟩ := Chains.mem_iff_lookup.mp table.wellFormed.output
  simp only [view, output, found, Option.getD_some]

theorem view_wellFormed (chain : String) (table : FilterTable) :
    (table.view chain).WellFormed chain where
  output := by
    intro missing jumps
    have inside := table.wellFormed.closed OUTPUT _ chain (table.lookup_output chain) jumps
    rw [← AList.lookup_isSome, show AList.lookup chain table.chains = none from missing] at inside
    exact absurd inside (by simp)
  foreign := by
    intro missing
    by_contra foreign
    obtain ⟨name, entries, found, jumps⟩ := view_foreign_iff.mp (by simpa using foreign)
    simp only [view] at found
    split at found
    · cases found
    · have inside := table.wellFormed.closed name entries chain found jumps
      rw [← AList.lookup_isSome, show AList.lookup chain table.chains = none
        from missing] at inside
      exact absurd inside (by simp)

theorem referenced_view {table : FilterTable} (notOutput : chain ≠ OUTPUT)
    (empty : (table.view chain).content = some []) :
    table.chains.referenced chain ↔
      .jump chain ∈ (table.view chain).output ∨ (table.view chain).foreign := by
  rw [Chains.referenced_iff, view_foreign_iff]
  constructor
  · rintro ⟨name, entries, found, jumps⟩
    by_cases isOutput : name = OUTPUT
    · subst isOutput
      left
      rw [table.lookup_output chain] at found
      cases found
      exact jumps
    · by_cases own : name = chain
      · subst own
        rw [show AList.lookup name table.chains = some [] from empty] at found
        cases found
        simp at jumps
      · exact .inr ⟨name, entries, by simp [view, isOutput, own, found], jumps⟩
  · rintro (jumps | ⟨name, entries, found, jumps⟩)
    · exact ⟨OUTPUT, _, table.lookup_output chain, jumps⟩
    · simp only [view] at found
      split at found
      · cases found
      · exact ⟨name, entries, found, jumps⟩

theorem run_eq_some (table : FilterTable) (op : FirewallOp) {chains : Chains}
    (ran : table.chains.run op = some chains) : ∃ wf, table.run op = some ⟨chains, wf⟩ := by
  refine ⟨table.wellFormed.run ran, ?_⟩
  unfold run
  split
  · rename_i found same
    cases same.symm.trans ran
    rfl
  · rename_i none
    cases none.symm.trans ran

theorem run_eq_none {table : FilterTable} {op : FirewallOp} (ran : table.chains.run op = none) :
    table.run op = none := by
  unfold run
  split
  · rename_i found same
    cases same.symm.trans ran
  · rfl

/-- Writing `OUTPUT` changes the view's entries of it and nothing else. -/
private theorem view_insert_output {table : FilterTable} (notOutput : chain ≠ OUTPUT)
    (entries : List Entry) (wf) :
    view chain ⟨AList.insert OUTPUT entries table.chains, wf⟩ =
      { table.view chain with output := entries } := by
  refine view_eq ?_ ?_ ?_ table rfl rfl
  · exact AList.lookup_insert_ne notOutput
  · exact AList.lookup_insert _
  · intro name isOther notOwn
    simp [view, isOther, notOwn, AList.lookup_insert_ne isOther]

/-- Writing the chain changes its content and nothing else. -/
private theorem view_insert_chain {table : FilterTable} (notOutput : chain ≠ OUTPUT)
    (entries : List Entry) (wf) :
    view chain ⟨AList.insert chain entries table.chains, wf⟩ =
      { table.view chain with content := some entries } := by
  refine view_eq ?_ ?_ ?_ table rfl rfl
  · exact AList.lookup_insert _
  · simpa only [AList.lookup_insert_ne notOutput.symm] using table.lookup_output chain
  · intro name isOther notOwn
    simp [view, isOther, notOwn, AList.lookup_insert_ne notOwn]

private theorem view_erase_chain {table : FilterTable} (notOutput : chain ≠ OUTPUT) (wf) :
    view chain ⟨AList.erase chain table.chains, wf⟩ = { table.view chain with content :=
      none } := by
  refine view_eq ?_ ?_ ?_ table rfl rfl
  · exact AList.lookup_erase _ _
  · simpa only [AList.lookup_erase_ne notOutput.symm] using table.lookup_output chain
  · intro name isOther notOwn
    simp [view, isOther, notOwn, AList.lookup_erase_ne notOwn]

/-- Running an owned operation and taking the view commute. -/
theorem run_view {op : FirewallOp} (owned : op.Owned chain) (notOutput : chain ≠ OUTPUT)
    (table : FilterTable) : (table.run op).map (view chain) = (table.view chain).run chain op := by
  have output := table.lookup_output chain
  have missing : AList.lookup chain table.chains = none ↔ chain ∉ table.chains :=
    AList.lookup_eq_none
  cases owned with
  | unjump =>
      by_cases jumps : .jump chain ∈ (table.view chain).output
      · obtain ⟨wf, ran⟩ := table.run_eq_some (.unjump OUTPUT chain) (by
          simp only [Chains.run, output, Option.bind_some, if_pos jumps]; rfl)
        rw [ran, Option.map_some, view_insert_output notOutput, View.run, if_pos jumps]
      · rw [run_eq_none (by simp only [Chains.run, output, Option.bind_some, if_neg jumps]),
          View.run, if_neg jumps, Option.map_none]
  | flush =>
      cases content : AList.lookup chain table.chains with
      | none =>
          rw [run_eq_none (by simp only [Chains.run, if_neg (missing.mp content)])]
          simp only [View.run, view, content, Option.map_none]
      | some entries =>
          have inside : chain ∈ table.chains := Chains.mem_iff_lookup.mpr ⟨entries, content⟩
          obtain ⟨wf, ran⟩ := table.run_eq_some (.flushChain chain) (by
            simp only [Chains.run, if_pos inside]; rfl)
          rw [ran, Option.map_some, view_insert_chain notOutput, View.run,
            show (table.view chain).content = some entries from content, Option.map_some]
  | create =>
      cases content : AList.lookup chain table.chains with
      | none =>
          obtain ⟨wf, ran⟩ := table.run_eq_some (.createChain chain) (by
            simp only [Chains.run, if_neg (missing.mp content)]; rfl)
          rw [ran, Option.map_some, view_insert_chain notOutput, View.run,
            if_pos (show (table.view chain).content = none from content)]
      | some entries =>
          have inside : chain ∈ table.chains := Chains.mem_iff_lookup.mpr ⟨entries, content⟩
          rw [run_eq_none (by simp only [Chains.run, if_pos inside]), Option.map_none, View.run,
            if_neg (by simp [view, content])]
  | append rule =>
      cases content : AList.lookup chain table.chains with
      | none =>
          rw [run_eq_none (by simp only [Chains.run, content, Option.map_none])]
          simp only [View.run, view, content, Option.map_none]
      | some entries =>
          obtain ⟨wf, ran⟩ := table.run_eq_some (.append chain rule) (by
            simp only [Chains.run, content, Option.map_some]; rfl)
          rw [ran, Option.map_some, view_insert_chain notOutput, View.run,
            show (table.view chain).content = some entries from content, Option.map_some]
  | jump =>
      cases content : AList.lookup chain table.chains with
      | none =>
          rw [run_eq_none (by simp only [Chains.run, if_neg (missing.mp content)]), Option.map_none,
            View.run, if_pos (show (table.view chain).content = none from content)]
      | some entries =>
          have inside : chain ∈ table.chains := Chains.mem_iff_lookup.mpr ⟨entries, content⟩
          obtain ⟨wf, ran⟩ := table.run_eq_some (.jump OUTPUT chain) (by
            simp only [Chains.run, if_pos inside, output, Option.map_some]; rfl)
          rw [ran, Option.map_some, view_insert_output notOutput, View.run,
            if_neg (by simp [view, content])]
  | delete =>
      have allowed : (chain ≠ OUTPUT ∧ AList.lookup chain table.chains = some [] ∧
          !table.chains.referenced chain) ↔ ((table.view chain).content = some [] ∧
          .jump chain ∉ (table.view chain).output ∧ !(table.view chain).foreign) := by
        constructor
        · rintro ⟨-, empty, unreferenced⟩
          have unreferenced :=
            mt (referenced_view notOutput empty).mpr (by simpa using unreferenced)
          rw [not_or] at unreferenced
          exact ⟨empty, unreferenced.1, by simpa using unreferenced.2⟩
        · rintro ⟨empty, unjumped, foreign⟩
          refine ⟨notOutput, empty, ?_⟩
          have unreferenced := mt (referenced_view notOutput empty).mp
            (not_or.mpr ⟨unjumped, by simpa using foreign⟩)
          simpa using unreferenced
      by_cases may : (table.view chain).content = some [] ∧
          .jump chain ∉ (table.view chain).output ∧ !(table.view chain).foreign
      · obtain ⟨wf, ran⟩ := table.run_eq_some (.deleteChain chain) (by
          simp only [Chains.run, if_pos (allowed.mpr may)]; rfl)
        rw [ran, Option.map_some, view_erase_chain notOutput, View.run, if_pos may]
      · rw [run_eq_none (by simp only [Chains.run, if_neg (mt allowed.mp may)]), View.run,
          if_neg may, Option.map_none]

end FilterTable

end Rustnies
