import Rustnies.Platform.GuardInstall

/-! # What the installed guards let through

The way of a packet through `OUTPUT` once guards are installed. A guard's jump is
appended, so what stood in `OUTPUT` before is asked first, then the DNS guard, then
the kill switch (`walkOutput_append`). From this follow the packets that the kill
switch stops, and the carriers that the two guards leave room for.
-/

namespace Rustnies

/-! ## Traversal -/

section Traversal

variable {packet : Packet} {visit other : String → List String → Decision × List String}

/-- A visit only adds to the visited chains. -/
private theorem walk_grows (grows : ∀ target visited, visited ⊆ (visit target visited).2)
    (entries : List Entry) (visited : List String) :
    visited ⊆ (walk packet visit entries visited).2 := by
  induction entries generalizing visited with
  | nil => simp [walk]
  | cons e entries ih =>
      cases e with
      | rule spec =>
          simp only [walk]
          split
          · exact List.Subset.refl _
          · exact ih visited
      | jump target =>
          simp only [walk]
          split
          · exact grows target visited
          · exact List.Subset.trans (grows target visited) (ih _)

private theorem traverse_grows (chains : Chains) (depth : Nat) (chain : String)
    (visited : List String) : visited ⊆ (traverse chains packet depth chain visited).2 := by
  induction depth generalizing chain visited with
  | zero => simp [traverse]
  | succ depth ih =>
      have entered : visited ⊆ visited ++ [chain] := List.subset_append_left ..
      simp only [traverse]
      split
      · exact List.Subset.refl _
      · split
        · exact entered
        · exact List.Subset.trans entered (walk_grows ih _ _)

/-- Two ways to take jumps that agree on the targets at hand give the same walk. -/
private theorem walk_congr (grows : ∀ target visited, visited ⊆ (visit target visited).2)
    {entries : List Entry} {visited : List String}
    (same : ∀ target, .jump target ∈ entries → ∀ later, visited ⊆ later →
      visit target later = other target later) :
    walk packet visit entries visited = walk packet other entries visited := by
  induction entries generalizing visited with
  | nil => rfl
  | cons e entries ih =>
      cases e with
      | rule spec =>
          simp only [walk]
          rw [ih fun target inside => same target (List.mem_cons_of_mem _ inside)]
      | jump target =>
          simp only [walk]
          rw [← same target List.mem_cons_self visited (List.Subset.refl _)]
          rw [ih fun target' inside later above =>
            same target' (List.mem_cons_of_mem _ inside) later
            (List.Subset.trans (grows target visited) above)]

/-- A walk whose jumps do not enter `chain` does not visit it. -/
private theorem walk_avoids {chain : String}
    (grows : ∀ target visited, visited ⊆ (visit target visited).2)
    (avoids : ∀ target visited, OUTPUT ∈ visited → target ≠ chain → chain ∉ visited →
      chain ∉ (visit target visited).2)
    {entries : List Entry} (noJump : .jump chain ∉ entries) {visited : List String}
    (started : OUTPUT ∈ visited) (fresh : chain ∉ visited) :
    chain ∉ (walk packet visit entries visited).2 := by
  induction entries generalizing visited with
  | nil => exact fresh
  | cons e entries ih =>
      have later : .jump chain ∉ entries := fun inside => noJump (List.mem_cons_of_mem _ inside)
      cases e with
      | rule spec =>
          simp only [walk]
          split
          · exact fresh
          · exact ih later started fresh
      | jump target =>
          have here : target ≠ chain := by
            rintro rfl
            exact noJump List.mem_cons_self
          have still := avoids target visited started here fresh
          simp only [walk]
          split
          · exact still
          · exact ih later (grows target visited started) still

/-- The chains that a traversal can still enter. -/
private def unvisited (chains : Chains) (visited : List String) : Nat :=
  (chains.keys.filter (· ∉ visited)).length

private theorem unvisited_mono (chains : Chains) {visited later : List String}
    (above : visited ⊆ later) : unvisited chains later ≤ unvisited chains visited := by
  refine (List.Sublist.length_le ?_)
  refine List.monotone_filter_right _ fun name outside => ?_
  simp only [decide_eq_true_eq] at outside ⊢
  exact fun inside => outside (above inside)

private theorem unvisited_lt {chains : Chains} {visited : List String} {chain : String}
    (inside : chain ∈ chains) (fresh : chain ∉ visited) :
    unvisited chains (visited ++ [chain]) < unvisited chains visited := by
  have split : chains.keys.filter (· ∉ visited ++ [chain]) =
      (chains.keys.filter (· ∉ visited)).filter (· ≠ chain) := by
    rw [List.filter_filter]
    refine List.filter_congr fun name _ => ?_
    simp [not_or, Bool.and_comm]
  rw [unvisited, split]
  refine List.length_filter_lt_length_iff_exists.mpr ⟨chain, ?_, by simp⟩
  simpa using ⟨AList.mem_keys.mp inside, fresh⟩

/-- Outside `OUTPUT` and `chain`, the two tables hold the same entries, and none of
    them jumps to `chain`. -/
structure Agree (chain : String) (left right : Chains) : Prop where
  same : ∀ name, name ≠ OUTPUT → name ≠ chain → AList.lookup name left =
    AList.lookup name right
  noJump : ∀ name entries, name ≠ OUTPUT → name ≠ chain → AList.lookup name left =
    some entries → .jump chain ∉ entries

variable {chain : String} {left right : Chains}

/-- Once in `OUTPUT`, a traversal that does not enter `chain` goes the same way in
    both tables, for any depths that are enough. -/
private theorem traverse_congr (agree : Agree chain left right) {depth depth' : Nat}
    {target : String} {visited : List String} (started : OUTPUT ∈ visited)
    (notOwn : target ≠ chain) (enough : unvisited left visited < depth)
    (enough' : unvisited right visited < depth') :
    traverse left packet depth target visited = traverse right packet depth' target visited := by
  induction depth generalizing depth' target visited with
  | zero => omega
  | succ depth ih =>
      cases depth' with
      | zero => omega
      | succ depth' =>
          simp only [traverse]
          by_cases seen : target ∈ visited
          · simp only [if_pos seen]
          · have notOutput : target ≠ OUTPUT := fun isOutput => seen (isOutput ▸ started)
            simp only [if_neg seen, ← agree.same target notOutput notOwn]
            cases found : AList.lookup target left with
            | none => rfl
            | some entries =>
                have inLeft : target ∈ left := Chains.mem_iff_lookup.mpr ⟨entries, found⟩
                have inRight : target ∈ right :=
                  Chains.mem_iff_lookup.mpr
                    ⟨entries, (agree.same target notOutput notOwn) ▸ found⟩
                have fewer := unvisited_lt inLeft seen
                have fewer' := unvisited_lt inRight seen
                simp only
                rw [walk_congr (traverse_grows left depth) fun next jumps later above => ?_]
                have notOwn' : next ≠ chain := by
                  rintro rfl
                  exact agree.noJump target entries notOutput notOwn found jumps
                have mono := unvisited_mono left above
                have mono' := unvisited_mono right above
                exact ih (above (List.mem_append_left _ started)) notOwn' (by omega) (by omega)

private theorem traverse_avoids (agree : Agree chain left right) {depth : Nat} {target : String}
    {visited : List String} (started : OUTPUT ∈ visited) (notOwn : target ≠ chain)
    (fresh : chain ∉ visited) : chain ∉ (traverse left packet depth target visited).2 := by
  induction depth generalizing target visited with
  | zero => exact fresh
  | succ depth ih =>
      simp only [traverse]
      by_cases seen : target ∈ visited
      · simpa only [if_pos seen] using fresh
      · have notOutput : target ≠ OUTPUT := fun isOutput => seen (isOutput ▸ started)
        have entered : chain ∉ visited ++ [target] := by simp [fresh, notOwn.symm]
        simp only [if_neg seen]
        cases found : AList.lookup target left with
        | none => exact entered
        | some entries =>
            exact walk_avoids (traverse_grows left depth)
              (fun next later started' notOwn' fresh' => ih started' notOwn' fresh')
              (agree.noJump target entries notOutput notOwn found)
              (List.mem_append_left _ started) entered

end Traversal

/-! ## `OUTPUT` and an appended jump -/

/-- The walk over entries of `OUTPUT` in a table. -/
def walkOutput (chains : Chains) (packet : Packet) (entries : List Entry) :
    Option Decision × List String :=
  walk packet (traverse chains packet chains.keys.length) entries [OUTPUT]

/-- What a list of rules alone says about a packet, as a chain that is jumped to: a
    rule with another target ends the chain without a decision. -/
def verdict (rules : List FirewallRuleSpec) (packet : Packet) : Option Decision :=
  match rules.find? (ruleMatches · packet) with
  | none => none
  | some rule => if rule.target.decision = .pass then none else some rule.target.decision

theorem evaluate_eq (table : FilterTable) (packet : Packet) :
    evaluate table.chains packet = (walkOutput table.chains packet table.output).1.getD .pass := by
  have found := table.lookup_output OUTPUT
  simp only [evaluate, traverse, List.not_mem_nil, if_false, found, List.nil_append, walkOutput]
  rfl

/-- Walking on after a list of entries that did not decide. -/
private theorem walk_append (packet : Packet)
    (visit : String → List String → Decision × List String) (entries later : List Entry)
    (visited : List String) :
    walk packet visit (entries ++ later) visited =
      match walk packet visit entries visited with
      | (some decision, visited) => (some decision, visited)
      | (none, visited) => walk packet visit later visited := by
  induction entries generalizing visited with
  | nil => rfl
  | cons e entries ih =>
      cases e with
      | rule spec =>
          simp only [List.cons_append, walk]
          by_cases here : ruleMatches spec packet
          · simp only [if_pos here]
          · simp only [if_neg here, ih]
      | jump target =>
          simp only [List.cons_append, walk]
          by_cases decided : (visit target visited).1 ≠ .pass
          · simp only [if_pos decided]
          · simp only [if_neg decided, ih]

/-- A chain of rules decides by its first match and jumps nowhere. -/
private theorem walk_rules (packet : Packet)
    (visit : String → List String → Decision × List String) (rules : List FirewallRuleSpec)
    (visited : List String) :
    walk packet visit (rules.map .rule) visited =
      ((rules.find? (ruleMatches · packet)).map (·.target.decision), visited) := by
  induction rules with
  | nil => rfl
  | cons rule rules ih =>
      simp only [List.map_cons, walk, List.find?_cons]
      cases here : ruleMatches rule packet with
      | true => simp
      | false => simpa using ih

/-- The chain was built and jumped to from the end of `OUTPUT`, and nothing else
    changed. -/
structure Appended (chain : String) (rules : List FirewallRuleSpec) (before after : FilterTable) :
    Prop where
  own : AList.lookup chain after.chains = some (rules.map .rule)
  output : after.output = before.output.filter (· ≠ .jump chain) ++ [.jump chain]
  agree : Agree chain before.chains after.chains

theorem Appended.walkOutput_append {chain : String} {rules : List FirewallRuleSpec}
    {before after : FilterTable} (appended : Appended chain rules before after)
    (notOutput : chain ≠ OUTPUT) {entries : List Entry} (noJump : .jump chain ∉ entries)
    (packet : Packet) :
    (walkOutput after.chains packet (entries ++ [.jump chain])).1 =
      (walkOutput before.chains packet entries).1.or (verdict rules packet) := by
  have enough : ∀ table : FilterTable, unvisited table.chains [OUTPUT] <
    table.chains.keys.length := by
    intro table
    have fewer : unvisited table.chains ([] ++ [OUTPUT]) < _ :=
      unvisited_lt table.wellFormed.output (by simp)
    have all : unvisited table.chains [] = table.chains.keys.length := by simp [unvisited]
    rwa [all] at fewer
  -- the two tables agree on the entries, which do not enter the chain
  have same : walkOutput after.chains packet entries = walkOutput before.chains packet entries := by
    symm
    refine walk_congr (traverse_grows _ _) fun target jumps later above => ?_
    have notOwn : target ≠ chain := by
      rintro rfl
      exact noJump jumps
    have mono := unvisited_mono before.chains above
    have mono' := unvisited_mono after.chains above
    have enough' := enough before
    have enough'' := enough after
    exact traverse_congr appended.agree (above List.mem_cons_self) notOwn (by omega) (by omega)
  have fresh : chain ∉ (walkOutput before.chains packet entries).2 :=
    walk_avoids (traverse_grows _ _)
      (fun next later started notOwn fresh => traverse_avoids appended.agree started notOwn fresh)
      noJump List.mem_cons_self (by simpa using notOutput)
  rw [walkOutput, walk_append]
  rw [show walk packet (traverse after.chains packet after.chains.keys.length) entries [OUTPUT] =
    walkOutput before.chains packet entries from same]
  generalize walkOutput before.chains packet entries = walked at fresh ⊢
  obtain ⟨decision, visited⟩ := walked
  cases decision with
  | some d => rfl
  | none =>
      obtain ⟨depth, deep⟩ : ∃ depth, after.chains.keys.length = depth + 1 :=
        Nat.exists_eq_succ_of_ne_zero (by have := enough after; omega)
      simp only [walk, deep, traverse, if_neg fresh, appended.own, walk_rules,
        Option.none_or, verdict]
      cases rules.find? (ruleMatches · packet) with
      | none => simp
      | some rule =>
          simp only [Option.map_some, Option.getD_some]
          by_cases passes : rule.target.decision = .pass
          · simp [passes]
          · simp [passes]

/-- The table of a family. -/
def FilterTable.ofFamily (tables : FilterTable × FilterTable) : FirewallFamily → FilterTable
  | .ipv4 => tables.1
  | .ipv6 => tables.2

theorem Protection.appended (p : Protection) {tables after : FilterTable × FilterTable}
    {guard : Guard} (installed : p.guard.install netfilter tables = (true, guard, after))
    (family : FirewallFamily) :
    Appended p.chain (p.rules.filter (·.family = family)) (.ofFamily tables family)
      (.ofFamily after family) := by
  obtain ⟨u4, u6, torn, both, after4, after6⟩ := p.install_succeeded installed
  have wf4 := tables.1.view_wellFormed p.chain
  have wf6 := tables.2.view_wellFormed p.chain
  obtain ⟨uwf4, uwf6⟩ := torn.wellFormed wf4 wf6
  obtain ⟨ready, -⟩ := torn.ready wf4 wf6 both.1 both.2
  -- one family, from what the teardown left of it
  have one : ∀ {before later : FilterTable} {u : View}, u.WellFormed p.chain → u.content =
    none → u.others = (before.view p.chain).others → (before.view p.chain).foreign =
    false → u.output.filter (· ≠ .jump p.chain) = before.output.filter
    (· ≠ .jump p.chain) → later.view p.chain = u.built p.chain p.rules family →
      Appended p.chain (p.rules.filter (·.family = family)) before later := by
    intro before later u wf missing others unreferenced kept built
    have unjumped : u.output.filter (· ≠ .jump p.chain) = u.output := by
      refine List.filter_eq_self.mpr fun e inside => ?_
      simp only [ne_eq, decide_not, Bool.not_eq_eq_eq_not, Bool.not_true, decide_eq_false_iff_not]
      rintro rfl
      exact wf.output missing inside
    have sameOthers : (before.view p.chain).others = (later.view p.chain).others := by
      rw [built, ← others]
      rfl
    refine ⟨congrArg View.content built, ?_, ?_, ?_⟩
    · rw [← kept, unjumped]
      exact congrArg View.output built
    · intro name notOutput notOwn
      have same := congrFun sameOthers name
      simpa [FilterTable.view, notOutput, notOwn] using same
    · intro name entries notOutput notOwn found jumps
      have foreign : (before.view p.chain).foreign = true := FilterTable.view_foreign_iff.mpr
        ⟨name, entries, by simpa [FilterTable.view, notOutput, notOwn] using found, jumps⟩
      rw [unreferenced] at foreign
      cases foreign
  cases family with
  | ipv4 => exact one uwf4 both.1 torn.others4 ready.foreign4 torn.output4 after4
  | ipv6 => exact one uwf6 both.2 torn.others6 ready.foreign6 torn.output6 after6

/-! ## What the rules say -/

/-- The rules of one family among those written for both. -/
private theorem filter_both {rules : FirewallFamily → List FirewallRuleSpec}
    (own : ∀ family, ∀ rule ∈ rules family, rule.family = family) (family : FirewallFamily) :
    (FirewallFamily.both.flatMap rules).filter (·.family = family) = rules family := by
  have keeps : ∀ one, (rules one).filter (·.family = family) = if one = family then rules one
    else [] := by
    intro one
    by_cases same : one = family
    · rw [if_pos same]
      exact List.filter_eq_self.mpr fun rule inside => by simp [own one rule inside, same]
    · rw [if_neg same]
      exact List.filter_eq_nil_iff.mpr fun rule inside => by simp [own one rule inside, same]
  cases family <;> simp [FirewallFamily.both, List.filter_append, keeps]

private theorem verdict_cons (rule : FirewallRuleSpec) (rules : List FirewallRuleSpec)
    (packet : Packet) : verdict (rule :: rules) packet =
      if ruleMatches rule packet then
        if rule.target.decision = .pass then none else some rule.target.decision
      else verdict rules packet := by
  rw [verdict, List.find?_cons]
  cases ruleMatches rule packet <;> rfl

theorem ksRules_verdict (server : SocketAddr) (tunName : String) (packet : Packet) :
    verdict ((ksRules server tunName).filter (·.family = packet.dst.family)) packet =
      if packet.outIface = "lo" ∨ packet.outIface = tunName ∨
          (packet.proto = "udp" ∧ packet.dst = server.ip ∧ packet.dport = server.port) then
        some .accept
      else some .reject := by
  have own : ∀ family, ∀ rule ∈ ksFamilyRules server tunName family,
    rule.family = family := by
    intro family rule inside
    simp only [ksFamilyRules, List.cons_append, List.nil_append, List.mem_cons, List.mem_append,
      List.not_mem_nil, or_false] at inside
    rcases inside with rfl | rfl | server | rfl
    · rfl
    · rfl
    · split at server
      · cases List.mem_singleton.mp server
        rfl
      · cases server
    · rfl
  rw [ksRules, filter_both own]
  by_cases family : packet.dst.family = server.ip.family
  · simp only [ksFamilyRules, if_pos family, FirewallRuleSpec.all, List.cons_append,
      List.nil_append, verdict_cons, ruleMatches, Target.decision]
    grind
  · have other : packet.dst ≠ server.ip := fun same => family (congrArg IpAddr.family same)
    simp only [ksFamilyRules, if_neg family, FirewallRuleSpec.all, List.cons_append,
      List.nil_append, List.append_nil, verdict_cons, ruleMatches, Target.decision]
    grind

theorem dnsRules_verdict (tunName : String) (packet : Packet) :
    verdict ((dnsRules tunName).filter (·.family = packet.dst.family)) packet =
      if packet.dport = 53 ∧ (packet.proto = "udp" ∨ packet.proto = "tcp") then
        some (if packet.outIface = tunName then .accept else .reject)
      else none := by
  have own : ∀ family, ∀ rule ∈ dnsFamilyRules tunName family, rule.family = family := by
    intro family rule inside
    simp only [dnsFamilyRules, List.mem_cons, List.not_mem_nil, or_false] at inside
    rcases inside with rfl | rfl | rfl | rfl <;> rfl
  rw [dnsRules, filter_both own]
  simp only [dnsFamilyRules, FirewallRuleSpec.all, verdict_cons, ruleMatches, Target.decision]
  have empty : verdict [] packet = none := rfl
  grind

/-! ## The recorded policy -/

private theorem replay_appends (chain : String) (rules : List FirewallRuleSpec)
    (entries : List Entry) {chains : Chains} (found : AList.lookup chain chains = some entries) :
    let after := (rules.map (FirewallOp.append chain)).foldl FirewallOp.replay chains
    AList.lookup chain after = some (entries ++ rules.map .rule) ∧
      ∀ name, name ≠ chain → AList.lookup name after = AList.lookup name chains := by
  induction rules generalizing chains entries with
  | nil => exact ⟨by simpa using found, fun _ _ => rfl⟩
  | cons rule rules ih =>
      simp only [List.map_cons, List.foldl_cons, FirewallOp.replay, found, Option.getD_some]
      obtain ⟨own, others⟩ := ih (entries ++ [.rule rule]) (AList.lookup_insert chains)
      refine ⟨by simpa using own, fun name other => ?_⟩
      rw [others name other, AList.lookup_insert_ne other]

/-- Replaying an installation alone leaves the chain and the jump to it. -/
private theorem replay_installOps {chain : String} (notOutput : chain ≠ OUTPUT)
    (rules : List FirewallRuleSpec) :
    let after := (installOps chain rules).foldl FirewallOp.replay ∅
    AList.lookup OUTPUT after = some [.jump chain] ∧
      AList.lookup chain after = some (rules.map .rule) := by
  have start : ([.unjump OUTPUT chain, .flushChain chain, .deleteChain chain,
      .createChain chain] : List FirewallOp).foldl FirewallOp.replay ∅ =
        AList.insert chain [] ∅ := rfl
  have created : AList.lookup chain (AList.insert chain [] (∅ : Chains)) = some [] :=
    AList.lookup_insert _
  obtain ⟨own, others⟩ := replay_appends chain rules [] created
  simp only [installOps, List.foldl_append, start, List.foldl_cons, List.foldl_nil,
    FirewallOp.replay]
  constructor
  · rw [AList.lookup_insert, others OUTPUT notOutput.symm, AList.lookup_insert_ne notOutput.symm]
    rfl
  · rw [AList.lookup_insert_ne notOutput]
    simpa using own

/-- The rules of the other family never match. -/
private theorem verdict_filter (rules : List FirewallRuleSpec) (packet : Packet) :
    verdict (rules.filter (·.family = packet.dst.family)) packet = verdict rules packet := by
  have same : (rules.filter (·.family = packet.dst.family)).find? (ruleMatches · packet) =
      rules.find? (ruleMatches · packet) := by
    rw [List.find?_filter]
    congr 1
    funext rule
    by_cases family : rule.family = packet.dst.family <;> simp [ruleMatches, family]
  rw [verdict, same, verdict]

/-- What `evaluate_packet` says of the recorded operations of a guard: the verdict of
    its rules. -/
theorem evaluatePacket_ops (p : Protection) (packet : Packet) :
    evaluatePacket p.guard.ops packet = (verdict p.rules packet).getD .pass := by
  obtain ⟨output, own⟩ := replay_installOps p.chain_ne_output p.rules
  rw [Protection.guard_eq, Guard.new, evaluatePacket]
  generalize (installOps p.chain p.rules).foldl FirewallOp.replay ∅ = chains at output own ⊢
  have inside : OUTPUT ∈ chains := Chains.mem_iff_lookup.mpr ⟨_, output⟩
  obtain ⟨depth, deep⟩ : ∃ depth, chains.keys.length = depth + 1 :=
    Nat.exists_eq_succ_of_ne_zero fun none =>
      absurd (AList.mem_keys.mp inside) (by simp [List.eq_nil_of_length_eq_zero none])
  have notSeen : p.chain ∉ [OUTPUT] := by simpa using p.chain_ne_output
  simp only [evaluate, traverse, List.not_mem_nil, if_false, output, List.nil_append, walk, deep,
    if_neg notSeen, own, walk_rules, verdict]
  cases p.rules.find? (ruleMatches · packet) with
  | none => rfl
  | some rule =>
      by_cases passes : rule.target.decision = .pass <;> simp [passes]

/-- The kill switch alone: everything but loopback, the TUN and the server's UDP
    endpoint is rejected. -/
theorem evaluatePacket_killSwitch (server : SocketAddr) (tunName : String) (packet : Packet) :
    evaluatePacket (KillSwitch.new server tunName).ops packet =
      if packet.outIface = "lo" ∨ packet.outIface = tunName ∨
          (packet.proto = "udp" ∧ packet.dst = server.ip ∧ packet.dport = server.port)
          then .accept
      else .reject := by
  have decided := evaluatePacket_ops (.killSwitch server tunName) packet
  rw [show (Protection.killSwitch server tunName).rules = ksRules server tunName from rfl,
    ← verdict_filter, ksRules_verdict] at decided
  rw [show KillSwitch.new server tunName = (Protection.killSwitch server tunName).guard
    from rfl, decided]
  split <;> rfl

/-! ## The kill switch -/

/-- The packets that the kill switch is there to stop. -/
structure Blocked (server : SocketAddr) (tunName : String) (packet : Packet) : Prop where
  notLoopback : packet.outIface ≠ "lo"
  notTun : packet.outIface ≠ tunName
  notServer : ¬ (packet.proto = "udp" ∧ packet.dst = server.ip ∧ packet.dport = server.port)

/-- What was in `OUTPUT` already, other than jumps to the chains of the guards at
    hand, neither accepts the packet nor ends its way. -/
def Silent (own : List String) (table : FilterTable) (packet : Packet) : Prop :=
  let prior := table.output.filter fun e => ∀ chain ∈ own, e ≠ .jump chain
  (walkOutput table.chains packet prior).1 = none ∨
    (walkOutput table.chains packet prior).1 = some .reject

/-- The tables before the kill switch: as they were, or after the DNS guard. -/
def installDns (dns : Bool) (tunName : String) (tables : FilterTable × FilterTable) :
    Bool × FilterTable × FilterTable :=
  if dns then
    let (ok, _, after) := (DnsLeakGuard.new tunName).install netfilter tables
    (ok, after)
  else (true, tables)

/-- The chains of the guards installed with the kill switch. -/
def guardChains (dns : Bool) : List String := if dns then [DNS_CHAIN, KS_CHAIN] else [KS_CHAIN]

/-- The order in which a packet meets the rules: the prior entries, the DNS guard
    when it is installed, the kill switch. -/
private theorem evaluate_guarded (server : SocketAddr) (tunName : String) (dns : Bool)
    {tables before after : FilterTable × FilterTable} {guard : Guard}
    (first : installDns dns tunName tables = (true, before))
    (second : (KillSwitch.new server tunName).install netfilter before = (true, guard, after))
    (packet : Packet) :
    let family := packet.dst.family
    let table := FilterTable.ofFamily tables family
    evaluate (FilterTable.ofFamily after family).chains packet =
      (((walkOutput table.chains packet
          (table.output.filter fun e => ∀ chain ∈ guardChains dns, e ≠ .jump chain)).1.or
        (if dns then verdict ((dnsRules tunName).filter (·.family = family)) packet else none)).or
        (verdict ((ksRules server tunName).filter (·.family = family)) packet)).getD .pass := by
  intro family table
  have switch : Appended KS_CHAIN ((ksRules server tunName).filter (·.family = family))
      (.ofFamily before family) (.ofFamily after family) :=
    (Protection.killSwitch server tunName).appended second family
  have noKs : ∀ entries : List Entry, .jump KS_CHAIN ∉ entries.filter (· ≠ .jump KS_CHAIN) :=
    by simp
  rw [evaluate_eq, switch.output, switch.walkOutput_append (by decide) (noKs _)]
  cases dns with
  | false =>
      cases first
      simp [guardChains, table]
  | true =>
      simp only [installDns, if_true, Prod.mk.injEq] at first
      obtain ⟨guard', installed⟩ : ∃ guard',
        (DnsLeakGuard.new tunName).install netfilter tables = (true, guard', before) :=
        ⟨_, Prod.ext first.1 (Prod.ext rfl first.2)⟩
      have dns : Appended DNS_CHAIN ((dnsRules tunName).filter (·.family = family)) table
          (.ofFamily before family) :=
        (Protection.dnsLeakGuard tunName).appended installed family
      have noDns : .jump DNS_CHAIN ∉
          (table.output.filter (· ≠ .jump DNS_CHAIN)).filter (· ≠ .jump KS_CHAIN) := by simp
      have split : (FilterTable.ofFamily before family).output.filter (· ≠ .jump KS_CHAIN) =
          (table.output.filter (· ≠ .jump DNS_CHAIN)).filter (· ≠ .jump KS_CHAIN) ++
            [.jump DNS_CHAIN] := by
        rw [dns.output, List.filter_append]
        congr 1
      have merged : (table.output.filter (· ≠ .jump DNS_CHAIN)).filter (· ≠ .jump KS_CHAIN) =
          table.output.filter fun e => ∀ chain ∈ guardChains true, e ≠ .jump chain := by
        rw [List.filter_filter]
        refine List.filter_congr fun e _ => ?_
        simp [guardChains, Bool.and_comm]
      simp only [if_true]
      rw [split, dns.walkOutput_append (by decide) noDns, merged]

/-- The kill switch stops what it is there to stop exactly when no entry that was in
    `OUTPUT` before lets it go. -/
theorem killSwitch_blocks_iff (server : SocketAddr) (tunName : String) (dns : Bool)
    {tables before after : FilterTable × FilterTable} {guard : Guard}
    (first : installDns dns tunName tables = (true, before))
    (second : (KillSwitch.new server tunName).install netfilter before = (true, guard, after)) :
    (∀ packet, Blocked server tunName packet →
      evaluate (FilterTable.ofFamily after packet.dst.family).chains packet = .reject) ↔
    ∀ packet, Blocked server tunName packet →
      Silent (guardChains dns) (.ofFamily tables packet.dst.family) packet := by
  refine forall_congr' fun packet => forall_congr' fun blocked => ?_
  have stopped : verdict ((ksRules server tunName).filter (·.family = packet.dst.family)) packet =
      some .reject := by
    rw [ksRules_verdict, if_neg (by
      simp only [not_or]
      exact ⟨blocked.notLoopback, blocked.notTun, blocked.notServer⟩)]
  have dnsStops : verdict ((dnsRules tunName).filter (·.family = packet.dst.family)) packet =
    none ∨ verdict ((dnsRules tunName).filter (·.family = packet.dst.family)) packet =
    some .reject := by
    rw [dnsRules_verdict, if_neg blocked.notTun]
    split
    · exact .inr rfl
    · exact .inl rfl
  rw [evaluate_guarded server tunName dns first second packet, stopped, Silent]
  generalize (walkOutput _ packet _).1 = prior
  cases prior with
  | some decision => simp
  | none =>
      cases dns with
      | false => simp
      | true => rcases dnsStops with passed | rejected <;> simp [*]

/-- A rule of the operator for loopback. -/
def loopbackRule : FirewallRuleSpec :=
  { FirewallRuleSpec.all .ipv4 .accept with outIface := some "lo" }

/-- Both guards go in behind the operator's rule for loopback, and nothing leaks. -/
theorem prior_loopback_blocked :
    let server : SocketAddr := ⟨.v4 0x01020304, 51820⟩
    let prior := (Protection.fresh.run (.append OUTPUT loopbackRule)).getD Protection.fresh
    let before := installDns true "tun0" (prior, Protection.fresh)
    let result := (KillSwitch.new server "tun0").install netfilter before.2
    prior.output = [.rule loopbackRule] ∧ result.1 = true ∧
      ∀ packet, Blocked server "tun0" packet →
        evaluate (FilterTable.ofFamily result.2.2 packet.dst.family).chains packet = .reject := by
  intro server prior before result
  have held : prior.output = [.rule loopbackRule] := by decide
  have installed : result.1 = true := by decide
  have first : before = (true, before.2) := Prod.ext (by decide) rfl
  have second : result = (true, result.2) := Prod.ext installed rfl
  refine ⟨held, installed, (killSwitch_blocks_iff server "tun0" true first second).mpr
    fun packet blocked => .inl ?_⟩
  have unmatched : ruleMatches loopbackRule packet = false := by
    have other : ("lo" == packet.outIface) = false := beq_false_of_ne (Ne.symm blocked.notLoopback)
    simp [ruleMatches, loopbackRule, FirewallRuleSpec.all, other]
  cases packet.dst.family with
  | ipv4 =>
      change (walkOutput prior.chains packet (prior.output.filter _)).1 = none
      rw [held]
      simp [walkOutput, walk, unmatched]
  | ipv6 => rfl

/-- A rule of the operator that lets SSH out. -/
def sshRule : FirewallRuleSpec :=
  { FirewallRuleSpec.all .ipv4 .accept with proto := some "tcp", dport := some 22 }

/-- The kill switch is installed behind the operator's rule, and SSH goes out past it. -/
theorem prior_accept_leaks :
    let server : SocketAddr := ⟨.v4 0x01020304, 51820⟩
    let prior := (Protection.fresh.run (.append OUTPUT sshRule)).getD Protection.fresh
    let result := (KillSwitch.new server "tun0").install netfilter (prior, Protection.fresh)
    result.1 = true ∧ ¬ ∀ packet, Blocked server "tun0" packet →
      evaluate (FilterTable.ofFamily result.2.2 packet.dst.family).chains packet = .reject := by
  intro server prior result
  refine ⟨by decide, fun stops => ?_⟩
  have leaked := stops ⟨"tcp", .v4 0x05060708, 22, "eth0"⟩ ⟨by decide, by decide, by decide⟩
  exact absurd leaked (by decide)

/-! ## The client's own carrier -/

/-- The part of the client's configuration that decides about guards and carrier. -/
structure ClientConfig where
  server : SocketAddr
  tunName : String
  routeAll : Bool
  dnsLeakProtection : Bool
  killSwitch : Bool
  carrier : Carrier
  deriving Repr, DecidableEq

namespace ClientConfig

/-- The kill switch forces `route_all` on, before anything else looks at it. -/
def forceRouteAll (cfg : ClientConfig) : ClientConfig :=
  if cfg.killSwitch && !cfg.routeAll then { cfg with routeAll := true } else cfg

/-- Whether `run_client` installs the DNS guard. -/
def dnsGuard (cfg : ClientConfig) : Bool :=
  let cfg := cfg.forceRouteAll
  cfg.routeAll && cfg.dnsLeakProtection

theorem dnsGuard_eq (cfg : ClientConfig) :
    cfg.dnsGuard = ((cfg.routeAll || cfg.killSwitch) && cfg.dnsLeakProtection) := by
  obtain ⟨-, -, routeAll, -, killSwitch, -⟩ := cfg
  cases routeAll <;> cases killSwitch <;> rfl

/-- The guards of `run_client`, in its order. A DNS guard that fails is reported and
    left out; a kill switch that fails stops the client. -/
def installGuards (cfg : ClientConfig) (tables : FilterTable × FilterTable) :
    Option (FilterTable × FilterTable) :=
  let tables := (installDns cfg.dnsGuard cfg.tunName tables).2
  if cfg.killSwitch then
    match (KillSwitch.new cfg.server cfg.tunName).install netfilter tables with
    | (true, _, tables) => some tables
    | (false, _, _) => none
  else some tables

/-- What `connect_carrier` sends toward the server, through `iface`. -/
def carrierPacket (cfg : ClientConfig) (iface : String) : Packet where
  proto := cfg.carrier.name
  dst := cfg.server.ip
  dport := cfg.server.port
  outIface := iface

/-- On tables without rules the DNS guard goes in, and is all there is. -/
private theorem installDns_fresh (dns : Bool) (tunName : String) :
    ∃ before, installDns dns tunName (Protection.fresh, Protection.fresh) = (true, before) ∧
      (∀ family, KS_CHAIN ∉ (FilterTable.ofFamily before family).chains) ∧
      ∀ packet : Packet, evaluate (FilterTable.ofFamily before packet.dst.family).chains packet =
        ((if dns then verdict ((dnsRules tunName).filter (·.family = packet.dst.family)) packet
          else none).getD .pass) := by
  cases dns with
  | false =>
      refine ⟨_, rfl, fun family => by cases family <;> decide, fun packet => ?_⟩
      rw [evaluate_eq]
      cases packet.dst.family <;> rfl
  | true =>
      have missing : DNS_CHAIN ∉ Protection.fresh.chains := by decide
      obtain ⟨guard, before, installed⟩ := (Protection.dnsLeakGuard tunName).install_succeeds
        (Protection.fresh, Protection.fresh) missing missing
      have appended : ∀ family,
        Appended DNS_CHAIN ((dnsRules tunName).filter (·.family = family))
        (.ofFamily (Protection.fresh, Protection.fresh) family) (.ofFamily before family) :=
        (Protection.dnsLeakGuard tunName).appended installed
      have fresh : ∀ family, FilterTable.ofFamily (Protection.fresh, Protection.fresh) family =
          Protection.fresh := fun family => by cases family <;> rfl
      simp only [fresh] at appended
      refine ⟨before, ?_, fun family => ?_, fun packet => ?_⟩
      · simp only [installDns, if_true]
        rw [show (DnsLeakGuard.new tunName).install netfilter _ = _ from installed]
      · have same := (appended family).agree.same KS_CHAIN (by decide) (by decide)
        rw [← AList.lookup_eq_none, ← same]
        decide
      · rw [evaluate_eq, (appended packet.dst.family).output,
          (appended packet.dst.family).walkOutput_append (by decide) (by simp)]
        rfl

/-- Which carriers the installed rules leave room for. -/
theorem carrier_passes_iff (cfg : ClientConfig) (iface : String) :
    ∃ after, cfg.installGuards (Protection.fresh, Protection.fresh) = some after ∧
      (evaluate (FilterTable.ofFamily after cfg.server.ip.family).chains
        (cfg.carrierPacket iface) ≠ .reject ↔
        iface = cfg.tunName ∨
        (((cfg.routeAll || cfg.killSwitch) && cfg.dnsLeakProtection → cfg.server.port ≠ 53) ∧
          (cfg.killSwitch → cfg.carrier = .udp ∨ iface = "lo"))) := by
  rw [← dnsGuard_eq]
  obtain ⟨before, first, missing, passed⟩ := installDns_fresh cfg.dnsGuard cfg.tunName
  have dnsSays := dnsRules_verdict cfg.tunName (cfg.carrierPacket iface)
  have ksSays := ksRules_verdict cfg.server cfg.tunName (cfg.carrierPacket iface)
  have isUdp : cfg.carrier.name = "udp" ↔ cfg.carrier = .udp := by
    cases cfg.carrier <;> decide
  have isCarrier : cfg.carrier = .udp ∨ cfg.carrier.name = "tcp" := by
    cases cfg.carrier
    · exact .inl rfl
    · exact .inr rfl
  simp only [carrierPacket, isCarrier, and_true, isUdp] at dnsSays ksSays
  cases switch : cfg.killSwitch with
  | false =>
      refine ⟨before, by simp [installGuards, first, switch], ?_⟩
      have decided := passed (cfg.carrierPacket iface)
      simp only [carrierPacket, dnsSays] at decided
      simp only [carrierPacket, decided]
      grind
  | true =>
      obtain ⟨guard, after, second⟩ :=
        (Protection.killSwitch cfg.server cfg.tunName).install_succeeds before (missing .ipv4)
        (missing .ipv6)
      have second : (KillSwitch.new cfg.server cfg.tunName).install netfilter before =
        (true, guard, after) := second
      refine ⟨after, by simp [installGuards, first, switch, second], ?_⟩
      have decided := evaluate_guarded cfg.server cfg.tunName cfg.dnsGuard first second
        (cfg.carrierPacket iface)
      have prior : (FilterTable.ofFamily (Protection.fresh, Protection.fresh)
          cfg.server.ip.family).output = [] := by
        cases cfg.server.ip.family <;> rfl
      simp only [carrierPacket, dnsSays, ksSays, prior, List.filter_nil, walkOutput, walk,
        Option.none_or] at decided
      simp only [carrierPacket, decided]
      grind

/-- A TCP carrier behind the kill switch: the rule for the server is for UDP, so the
    client cannot connect. -/
theorem tcp_carrier_rejected :
    let cfg : ClientConfig := {
      server := ⟨.v4 0x01020304, 51820⟩, tunName := "tun0", routeAll := true,
      dnsLeakProtection := true, killSwitch := true, carrier := .tcp }
    (cfg.installGuards (Protection.fresh, Protection.fresh)).map (fun after =>
      evaluate (FilterTable.ofFamily after cfg.server.ip.family).chains
        (cfg.carrierPacket "eth0")) =
      some .reject := by
  decide

end ClientConfig

end Rustnies
