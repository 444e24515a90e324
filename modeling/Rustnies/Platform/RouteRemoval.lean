import Rustnies.Platform.RouteAll
import Mathlib.Data.List.Nodup

/-! # What route-all leaves behind

A deletion undoes an addition when it is for the same family, object and table and
names nothing that the added entry does not have. The installation keeps a list of
the subnet routes and rules it adds to the bypass table, but looks for their kind
one word too far, so the list stays empty and dropping the guard removes only the
default of that table. Everything else it adds is removed, on success and on
failure.
-/

namespace Rustnies

/-! ## Commands and what undoes them -/

inductive IpObject where
  | route
  | rule
  deriving Repr, DecidableEq

/-- An `ip` command, read. -/
structure IpCommand where
  ip6 : Bool
  object : IpObject
  verb : String
  selector : List (String × String)
  deriving Repr, DecidableEq

/-- Keywords and their values. -/
def attributes : Argv → List (String × String)
  | key :: value :: words => (key, value) :: attributes words
  | _ => []

def readObject (ip6 : Bool) : Argv → Option IpCommand
  | "route" :: verb :: dst :: words => some ⟨ip6, .route, verb, ("to", dst) :: attributes words⟩
  | "rule" :: verb :: words => some ⟨ip6, .rule, verb, attributes words⟩
  | _ => none

def readCommand : Argv → Option IpCommand
  | "-6" :: words => readObject true words
  | words => readObject false words

/-- The routing table a command is about. -/
def IpCommand.table (c : IpCommand) : String := (c.selector.lookup "table").getD "main"

def IsAdd (argv : Argv) : Prop := ∃ c, readCommand argv = some c ∧ c.verb = "add"

/-- The deletion removes what the addition added. -/
def Undoes (del add : Argv) : Prop :=
  ∃ d a, readCommand del = some d ∧ readCommand add = some a ∧ d.verb = "del" ∧
    a.verb = "add" ∧ d.ip6 = a.ip6 ∧ d.object = a.object ∧ d.table = a.table ∧
    d.selector ⊆ a.selector

/-- Every addition of the log that succeeded is undone by a command issued after it,
    in the log or in what comes later. -/
def UndoneBy (later : CommandLog) : CommandLog → Prop
  | [] => True
  | (argv, ok) :: log =>
      (ok = true → IsAdd argv → ∃ d ∈ log ++ later, Undoes d.1 argv) ∧ UndoneBy later log

instance (argv : Argv) : Decidable (IsAdd argv) :=
  decidable_of_iff ((readCommand argv).any fun c => c.verb = "add") (by
    cases read : readCommand argv <;> simp [IsAdd, read])

instance (del add : Argv) : Decidable (Undoes del add) :=
  decidable_of_iff ((readCommand del).any fun d => (readCommand add).any fun a =>
      d.verb = "del" ∧ a.verb = "add" ∧ d.ip6 = a.ip6 ∧ d.object = a.object ∧
        d.table = a.table ∧ d.selector ⊆ a.selector) (by
    cases readDel : readCommand del <;> cases readAdd : readCommand add <;>
      simp [Undoes, readDel, readAdd])

instance UndoneBy.decidable (later : CommandLog) :
    (log : CommandLog) → Decidable (UndoneBy later log)
  | [] => .isTrue trivial
  | e :: log =>
      have := UndoneBy.decidable later log
      inferInstanceAs
        (Decidable ((e.2 = true → IsAdd e.1 → ∃ d ∈ log ++ later, Undoes d.1 e.1) ∧ _))

theorem undoneBy_append {later first second : CommandLog} :
    UndoneBy later (first ++ second) ↔ UndoneBy
    (second ++ later) first ∧ UndoneBy later second := by
  induction first with
  | nil => simp [UndoneBy]
  | cons e first ih => simp only [List.cons_append, UndoneBy, ih, List.append_assoc, and_assoc]

theorem undoneBy_of_none {later log : CommandLog}
    (none : ∀ e ∈ log, e.2 = true → ¬ IsAdd e.1) :
    UndoneBy later log := by
  induction log with
  | nil => trivial
  | cons e log ih =>
      refine ⟨fun ok isAdd => absurd isAdd (none e List.mem_cons_self ok), ?_⟩
      exact ih fun e' inside => none e' (List.mem_cons_of_mem _ inside)

theorem undoneBy_of_later {later log : CommandLog}
    (undone : ∀ e ∈ log, e.2 = true → ∃ d ∈ later, Undoes d.1 e.1) :
    UndoneBy later log := by
  induction log with
  | nil => trivial
  | cons e log ih =>
      refine ⟨fun ok _ => ?_, ih fun e' inside => undone e' (List.mem_cons_of_mem _ inside)⟩
      obtain ⟨d, inside, undoes⟩ := undone e List.mem_cons_self ok
      exact ⟨d, List.mem_append_right _ inside, undoes⟩

/-! ## The shapes of the steps -/

section Shapes

variable (ip6 : Bool)

/-- A step that adds or deletes a route. -/
def routeStep (verb dst : String) (words : Argv) : Argv :=
  ipPrefix ip6 ++ "route" :: verb :: dst :: words

/-- A step that adds or deletes a rule of the bypass table. -/
def ruleStep (verb addr : String) : Argv :=
  ipPrefix ip6 ++ ["rule", verb, "from", addr, "table", BYPASS_TABLE, "priority", BYPASS_RULE_PRIO]

@[simp]
theorem readCommand_routeStep (verb dst : String) (words : Argv) :
    readCommand (routeStep ip6 verb dst words) =
      some ⟨ip6, .route, verb, ("to", dst) :: attributes words⟩ := by
  cases ip6 <;> rfl

@[simp]
theorem readCommand_ruleStep (verb addr : String) :
    readCommand (ruleStep ip6 verb addr) = some ⟨ip6, .rule, verb,
      [("from", addr), ("table", BYPASS_TABLE), ("priority", BYPASS_RULE_PRIO)]⟩ := by
  cases ip6 <;> rfl

theorem undoes_routeStep {dst : String} {words words' : Argv}
    (fewer : attributes words' ⊆ attributes words)
    (table : ((attributes words').lookup "table").getD "main" =
      ((attributes words).lookup "table").getD "main") :
    Undoes (routeStep ip6 "del" dst words') (routeStep ip6 "add" dst words) := by
  refine ⟨_, _, readCommand_routeStep .., readCommand_routeStep .., rfl, rfl, rfl, rfl, ?_, ?_⟩
  · exact table
  · exact List.cons_subset_cons _ fewer

theorem Undoes.of_routeStep {del : Argv} {dst : String} {words : Argv}
    (undoes : Undoes del (routeStep ip6 "add" dst words)) :
    ∃ selector, readCommand del = some ⟨ip6, .route, "del", selector⟩ ∧
      selector ⊆ ("to", dst) :: attributes words := by
  obtain ⟨d, a, readDel, readAdd, isDel, -, family, object, -, subset⟩ := undoes
  rw [readCommand_routeStep] at readAdd
  cases readAdd
  obtain ⟨ip6', object', verb, selector⟩ := d
  cases isDel
  cases family
  cases object
  exact ⟨selector, readDel, subset⟩

theorem Undoes.of_ruleStep {del : Argv} {addr : String}
    (undoes : Undoes del (ruleStep ip6 "add" addr)) :
    ∃ selector, readCommand del = some ⟨ip6, .rule, "del", selector⟩ ∧
      selector ⊆ [("from", addr), ("table", BYPASS_TABLE), ("priority", BYPASS_RULE_PRIO)] := by
  obtain ⟨d, a, readDel, readAdd, isDel, -, family, object, -, subset⟩ := undoes
  rw [readCommand_ruleStep] at readAdd
  cases readAdd
  obtain ⟨ip6', object', verb, selector⟩ := d
  cases isDel
  cases family
  cases object
  exact ⟨selector, readDel, subset⟩

end Shapes

/-! ## The main plan -/

section Main

variable (succeeds : Argv → Bool)

/-- The route of a subnet through the original gateway. -/
def lanStep (origGw cidr : String) : Argv := routeStep false "add" cidr ["via", origGw]

/-- The default route through the tunnel. -/
def tunStep (ip6 : Bool) (tunName : String) : Argv :=
  routeStep ip6 "add" "default" ["dev", tunName, "metric", "1"]

theorem routeAllPlan_eq (serverIp origGw : String) (lanCidrs : List String) (tunName : String) :
    routeAllPlan serverIp origGw lanCidrs tunName =
      lanStep origGw serverIp :: (lanCidrs.map (lanStep origGw) ++ [tunStep false tunName]) := rfl

/-- The loop over the subnets records those that succeed. -/
private theorem installMain_lan {serverIp origGw : String} {cidrs : List String} (plan : List Argv)
    (plain : ∀ cidr ∈ cidrs, cidr ≠ "default" ∧ cidr ≠ serverIp)
    (added : List Argv) (lanRoutes : List (String × String)) (log : CommandLog) :
    installMain succeeds serverIp origGw (cidrs.map (lanStep origGw) ++ plan) added lanRoutes log =
      installMain succeeds serverIp origGw plan
        (added ++ (cidrs.filter fun cidr => succeeds (lanStep origGw cidr)).map (lanStep origGw))
        (lanRoutes ++ (cidrs.filter fun cidr => succeeds (lanStep origGw cidr)).map (·, origGw))
        (log ++ cidrs.map fun cidr => issue succeeds (lanStep origGw cidr)) := by
  induction cidrs generalizing added lanRoutes log with
  | nil => simp
  | cons cidr cidrs ih =>
      obtain ⟨notDefault, notServer⟩ := plain cidr List.mem_cons_self
      have later := ih fun c inside => plain c (List.mem_cons_of_mem _ inside)
      have exception : 4 ≤ (lanStep origGw cidr).length ∧
        (lanStep origGw cidr).head? = some "route" ∧ cidr ≠ "default" ∧ cidr ≠ serverIp :=
        ⟨show 4 ≤ 5 by decide, rfl, notDefault, notServer⟩
      have dst : (lanStep origGw cidr).getD 2 "" = cidr := rfl
      rw [List.map_cons, List.cons_append, installMain]
      cases ok : succeeds (lanStep origGw cidr) with
      | true =>
          simp only [ok, if_true, if_pos exception, later, dst, List.filter_cons, List.map_cons,
            List.append_assoc, List.singleton_append]
      | false =>
          simp only [ok, Bool.false_eq_true, if_false, dst, if_pos exception, later,
            List.filter_cons, List.map_cons, List.append_assoc, List.singleton_append]

/-- What the main plan does: it stops at a required step that fails and deletes what
    it added, or adds everything but the subnets that fail. -/
theorem installMain_spec {serverIp : String} (origGw tunName : String) {cidrs : List String}
    (plain : ∀ cidr ∈ cidrs, cidr ≠ "default" ∧ cidr ≠ serverIp) :
    let server := lanStep origGw serverIp
    let lan := cidrs.filter fun cidr => succeeds (lanStep origGw cidr)
    let main := issue succeeds server ::
      (cidrs.map fun cidr => issue succeeds (lanStep origGw cidr)) ++
      [issue succeeds (tunStep false tunName)]
    installMain succeeds serverIp origGw (routeAllPlan serverIp origGw cidrs tunName) [] [] [] =
      if succeeds server then
        if succeeds (tunStep false tunName) then (some (lan.map (·, origGw)), main)
        else (none, main ++ (server :: lan.map (lanStep origGw)).reverse.map fun done =>
          issue succeeds (asDelete 1 done))
      else (none, [issue succeeds server]) := by
  intro server lan main
  have dst : (lanStep origGw serverIp).getD 2 "" = serverIp := rfl
  have tunDst : (tunStep false tunName).getD 2 "" = "default" := rfl
  rw [routeAllPlan_eq, installMain]
  simp only [dst, ne_eq, not_true_eq_false, and_false, if_false]
  cases ok : succeeds (lanStep origGw serverIp) with
  | false => simp [server]
  | true =>
      simp only [if_true, installMain_lan succeeds _ plain]
      simp only [installMain, tunDst, ne_eq, not_true_eq_false, false_and, and_false, if_false]
      cases tunOk : succeeds (tunStep false tunName) with
      | false => simp [main, lan, server]
      | true => simp [main, lan, server]

end Main

/-! ## The bypass table -/

section Bypass

variable (succeeds : Argv → Bool) (ip6 : Bool)

/-- The route of a subnet in the bypass table. -/
def bypassRoute (iface cidr : String) : Argv :=
  routeStep ip6 "add" cidr ["dev", iface, "table", BYPASS_TABLE]

/-- The default route of the bypass table. -/
def bypassDefault (gw iface : String) : Argv :=
  routeStep ip6 "add" "default" ["via", gw, "dev", iface, "table", BYPASS_TABLE]

theorem bypassPlan_eq (gw iface : String) (cidrs addrs : List String) :
    bypassPlan gw iface cidrs addrs ip6 = cidrs.map (bypassRoute ip6 iface) ++
      [bypassDefault ip6 gw iface] ++ addrs.map (ruleStep ip6 "add") := rfl

/-- The position of the verb. -/
def opIdx : Nat := if ip6 then 2 else 1

/-- The commands for one step after another. -/
def stepsLog (steps : List Argv) : CommandLog :=
  steps.flatMap fun step => [issue succeeds (asDelete (opIdx ip6) step), issue succeeds step]

@[simp]
theorem stepsLog_append (first second : List Argv) :
    stepsLog succeeds ip6 (first ++ second) =
      stepsLog succeeds ip6 first ++ stepsLog succeeds ip6 second := by
  simp only [stepsLog, List.flatMap_append]

/-- A step of the plan: its verb is at `opIdx`, and the word after the verb names
    neither object. -/
structure PlanStep (step : Argv) : Prop where
  verb : (if step.head? = some "-6" then 2 else 1) = opIdx ip6
  next : step.getD (opIdx ip6 + 1) "" ≠ "rule" ∧ step.getD (opIdx ip6 + 1) "" ≠ "route"

variable {ip6}

theorem planStep_route {dst : String} (notRule : dst ≠ "rule") (notRoute : dst ≠ "route")
    (words : Argv) : PlanStep ip6 (routeStep ip6 "add" dst words) := by
  cases ip6 <;> exact ⟨rfl, notRule, notRoute⟩

theorem planStep_rule (addr : String) : PlanStep ip6 (ruleStep ip6 "add" addr) := by
  have next : "from" ≠ "rule" ∧ "from" ≠ "route" := by decide
  cases ip6 <;> exact ⟨rfl, next⟩

/-- Nothing is recorded. -/
theorem installBypassPlan_eq {plan : List Argv} (steps : ∀ step ∈ plan, PlanStep ip6 step)
    (recorded : List String × List String) (log : CommandLog) :
    installBypassPlan succeeds plan recorded log =
    (recorded, log ++ stepsLog succeeds ip6 plan) := by
  induction plan generalizing log with
  | nil => simp [installBypassPlan, stepsLog]
  | cons step plan ih =>
      obtain ⟨verb, notRule, notRoute⟩ := steps step List.mem_cons_self
      have unrecorded : recordStep step (opIdx ip6) recorded = recorded := by
        simp only [recordStep, if_neg notRule, if_neg notRoute]
      simp only [installBypassPlan, verb, unrecorded, ite_self,
        ih fun s inside => steps s (List.mem_cons_of_mem _ inside), stepsLog, List.flatMap_cons,
        List.append_assoc]

@[simp]
theorem asDelete_routeStep (dst : String) (words : Argv) :
    asDelete (opIdx ip6) (routeStep ip6 "add" dst words) = routeStep ip6 "del" dst words := by
  cases ip6 <;> rfl

@[simp]
theorem asDelete_ruleStep (addr : String) :
    asDelete (opIdx ip6) (ruleStep ip6 "add" addr) = ruleStep ip6 "del" addr := by
  cases ip6 <;> rfl

theorem not_undoes_of_isAdd {other step : Argv} (isAdd : IsAdd other) : ¬ Undoes other step := by
  rintro ⟨d, a, readDel, -, isDel, -⟩
  obtain ⟨c, read, verb⟩ := isAdd
  cases read.symm.trans readDel
  rw [verb] at isDel
  exact absurd isDel (by decide)

theorem undoneBy_stepsLog_iff {steps : List Argv} {later : CommandLog} (nodup : steps.Nodup)
    (adds : ∀ step ∈ steps, IsAdd step)
    (dels : ∀ step ∈ steps, ¬ IsAdd (asDelete (opIdx ip6) step))
    (alone : ∀ step ∈ steps, ∀ other ∈ steps,
      Undoes (asDelete (opIdx ip6) other) step → other = step)
    (kept : ∀ step ∈ steps, ∀ d ∈ later, ¬ Undoes d.1 step) :
    UndoneBy later (stepsLog succeeds ip6 steps) ↔ ∀ step ∈ steps, succeeds step = false := by
  induction steps with
  | nil => simp [stepsLog, UndoneBy]
  | cons step steps ih =>
      obtain ⟨fresh, nodup⟩ := List.nodup_cons.mp nodup
      have rest := ih nodup (fun s inside => adds s (List.mem_cons_of_mem _ inside))
        (fun s inside => dels s (List.mem_cons_of_mem _ inside))
        (fun s inside o inside' => alone s (List.mem_cons_of_mem _ inside) o
          (List.mem_cons_of_mem _ inside')) (fun s inside => kept s (List.mem_cons_of_mem _ inside))
      have nothing : ¬ ∃ d ∈ stepsLog succeeds ip6 steps ++ later, Undoes d.1 step := by
        rintro ⟨d, inside, undoes⟩
        rcases List.mem_append.mp inside with here | after
        · obtain ⟨other, isOther, which⟩ := List.mem_flatMap.mp here
          simp only [List.mem_cons, List.not_mem_nil, or_false] at which
          rcases which with rfl | rfl
          · have same :=
              alone step List.mem_cons_self other (List.mem_cons_of_mem _ isOther) undoes
            exact fresh (same ▸ isOther)
          · exact not_undoes_of_isAdd (adds other (List.mem_cons_of_mem _ isOther)) undoes
        · exact kept step List.mem_cons_self d after undoes
      have isDelete := dels step List.mem_cons_self
      have split : stepsLog succeeds ip6 (step :: steps) =
          issue succeeds (asDelete (opIdx ip6) step) :: issue succeeds step ::
            stepsLog succeeds ip6 steps := rfl
      simp only [split, issue, UndoneBy, isDelete, false_implies, implies_true, true_and, nothing,
        rest, List.forall_mem_cons, adds step List.mem_cons_self, not_true_eq_false, imp_false,
        Bool.not_eq_true]

/-- The subnet routes and the rules of the bypass table: all its entries but the
    default. -/
def bypassEntries (ip6 : Bool) (iface : String) (cidrs : List Network) (addrs : List String) :
    List Argv :=
  cidrs.map (fun cidr => bypassRoute ip6 iface cidr.1) ++ addrs.map (ruleStep ip6 "add")

theorem network_ne {cidr : Network} {word : String} (plain : '/' ∉ word.toList) :
    cidr.1 ≠ word := by
  intro same
  exact plain (same ▸ cidr.2)

theorem isAdd_routeStep (dst : String) (words : Argv) : IsAdd (routeStep ip6 "add" dst words) :=
  ⟨_, readCommand_routeStep .., rfl⟩

theorem isAdd_ruleStep (addr : String) : IsAdd (ruleStep ip6 "add" addr) :=
  ⟨_, readCommand_ruleStep .., rfl⟩

theorem not_isAdd_of_del {argv : Argv} {c : IpCommand} (read : readCommand argv = some c)
    (isDel : c.verb = "del") : ¬ IsAdd argv := by
  rintro ⟨c', read', isAdd⟩
  cases read.symm.trans read'
  rw [isDel] at isAdd
  exact absurd isAdd (by decide)

theorem dst_of_undoes {del : Argv} {iface cidr dst : String} {words : List (String × String)}
    {family : Bool} (undoes : Undoes del (bypassRoute ip6 iface cidr))
    (read : readCommand del = some ⟨family, .route, "del", ("to", dst) :: words⟩) :
    dst = cidr := by
  obtain ⟨selector, read', subset⟩ := undoes.of_routeStep
  cases read.symm.trans read'
  have named := subset List.mem_cons_self
  simpa [attributes] using named

theorem addr_of_undoes {addr addr' : String}
    (undoes : Undoes (ruleStep ip6 "del" addr') (ruleStep ip6 "add" addr)) : addr' = addr := by
  obtain ⟨selector, read', subset⟩ := undoes.of_ruleStep
  rw [readCommand_ruleStep] at read'
  cases read'
  have named := subset List.mem_cons_self
  simpa using named

/-- The bypass table is undone exactly when nothing but its default is added, as long
    as what comes later deletes the default and otherwise leaves the table alone. -/
theorem undoneBy_bypass_iff (ip6 : Bool) (gw iface : String) {cidrs : List Network}
    {addrs : List String} (later : CommandLog) (cidrsNodup : cidrs.Nodup) (addrsNodup : addrs.Nodup)
    (default : ∃ d ∈ later, Undoes d.1 (bypassDefault ip6 gw iface))
    (keptRoutes : ∀ cidr : Network, ∀ d ∈ later, ¬ Undoes d.1 (bypassRoute ip6 iface cidr.1))
    (keptRules : ∀ addr, ∀ d ∈ later, ¬ Undoes d.1 (ruleStep ip6 "add" addr)) :
    UndoneBy later (stepsLog succeeds ip6 (bypassPlan gw iface (cidrs.map (·.1)) addrs ip6)) ↔
      ∀ step ∈ bypassEntries ip6 iface cidrs addrs, succeeds step = false := by
  -- the rules come last, and only the rule of the same address is undone by its deletion
  have rules : UndoneBy later (stepsLog succeeds ip6 (addrs.map (ruleStep ip6 "add"))) ↔
      ∀ step ∈ addrs.map (ruleStep ip6 "add"), succeeds step = false := by
    have injective : ∀ addr addr', ruleStep ip6 "add" addr =
      ruleStep ip6 "add" addr' → addr = addr' := by
      intro addr addr' same
      have read := congrArg readCommand same
      simpa using read
    refine undoneBy_stepsLog_iff succeeds (addrsNodup.map injective) ?_ ?_ ?_ ?_
    · simp only [List.forall_mem_map]
      exact fun addr _ => isAdd_ruleStep addr
    · simp only [List.forall_mem_map, asDelete_ruleStep]
      exact fun addr _ => not_isAdd_of_del (readCommand_ruleStep ..) rfl
    · simp only [List.forall_mem_map, asDelete_ruleStep]
      exact fun addr _ addr' _ undoes => congrArg _ (addr_of_undoes undoes)
    · simp only [List.forall_mem_map]
      exact fun addr _ => keptRules addr
  -- a subnet's route is left alone by the default's and the rules' commands too
  have between : ∀ cidr : Network,
    ∀ d ∈ stepsLog succeeds ip6
    ([bypassDefault ip6 gw iface] ++ addrs.map (ruleStep ip6 "add")),
    ¬ Undoes d.1 (bypassRoute ip6 iface cidr.1) := by
    intro cidr d inside undoes
    obtain ⟨step, isStep, which⟩ := List.mem_flatMap.mp inside
    simp only [List.singleton_append, List.mem_cons, List.not_mem_nil, or_false] at which isStep
    rcases isStep with rfl | isRule
    · rcases which with rfl | rfl
      · have same := dst_of_undoes undoes (by
          rw [issue, bypassDefault, asDelete_routeStep, readCommand_routeStep])
        exact network_ne (by decide) same.symm
      · exact not_undoes_of_isAdd (isAdd_routeStep ..) undoes
    · obtain ⟨addr, -, rfl⟩ := List.mem_map.mp isRule
      rcases which with rfl | rfl
      · obtain ⟨selector, read, -⟩ := undoes.of_routeStep
        rw [issue, asDelete_ruleStep, readCommand_ruleStep] at read
        cases read
      · exact not_undoes_of_isAdd (isAdd_ruleStep ..) undoes
  have routes : UndoneBy (stepsLog succeeds ip6 ([bypassDefault ip6 gw iface] ++
        addrs.map (ruleStep ip6 "add")) ++ later)
      (stepsLog succeeds ip6 (cidrs.map fun cidr => bypassRoute ip6 iface cidr.1)) ↔
      ∀ step ∈ cidrs.map (fun cidr => bypassRoute ip6 iface cidr.1), succeeds step = false := by
    have injective : ∀ cidr cidr' : Network,
        bypassRoute ip6 iface cidr.1 = bypassRoute ip6 iface cidr'.1 → cidr = cidr' := by
      intro cidr cidr' same
      have read := congrArg readCommand same
      simp only [bypassRoute, readCommand_routeStep, Option.some.injEq, IpCommand.mk.injEq,
        List.cons.injEq, Prod.mk.injEq, true_and, and_true] at read
      exact Subtype.ext read
    refine undoneBy_stepsLog_iff succeeds (cidrsNodup.map injective) ?_ ?_ ?_ ?_
    · simp only [List.forall_mem_map]
      exact fun cidr _ => isAdd_routeStep ..
    · simp only [List.forall_mem_map, bypassRoute, asDelete_routeStep]
      exact fun cidr _ => not_isAdd_of_del (readCommand_routeStep ..) rfl
    · simp only [List.forall_mem_map]
      intro cidr _ cidr' _ undoes
      have same :=
        dst_of_undoes undoes (by rw [bypassRoute, asDelete_routeStep, readCommand_routeStep])
      rw [same]
    · simp only [List.forall_mem_map]
      intro cidr _ d inside
      rcases List.mem_append.mp inside with near | far
      · exact between cidr d near
      · exact keptRoutes cidr d far
  have defaults : UndoneBy (stepsLog succeeds ip6 (addrs.map (ruleStep ip6 "add")) ++ later)
      (stepsLog succeeds ip6 [bypassDefault ip6 gw iface]) := by
    obtain ⟨d, inside, undoes⟩ := default
    have isDelete : ¬ IsAdd (asDelete (opIdx ip6) (bypassDefault ip6 gw iface)) := by
      rw [bypassDefault, asDelete_routeStep]
      exact not_isAdd_of_del (readCommand_routeStep ..) rfl
    exact ⟨fun _ isAdd => absurd isAdd isDelete,
      fun _ _ => ⟨d, List.mem_append_right _ (List.mem_append_right _ inside), undoes⟩,
      trivial⟩
  have plan : bypassPlan gw iface (cidrs.map (·.1)) addrs ip6 =
      cidrs.map (fun cidr => bypassRoute ip6 iface cidr.1) ++
        ([bypassDefault ip6 gw iface] ++ addrs.map (ruleStep ip6 "add")) := by
    rw [bypassPlan_eq, List.map_map, List.append_assoc]
    rfl
  have entries : (∀ step ∈ bypassEntries ip6 iface cidrs addrs, succeeds step = false) ↔
      (∀ step ∈ cidrs.map (fun cidr => bypassRoute ip6 iface cidr.1), succeeds step = false) ∧
      ∀ step ∈ addrs.map (ruleStep ip6 "add"), succeeds step = false := List.forall_mem_append
  rw [plan, stepsLog_append, undoneBy_append, routes, stepsLog_append, undoneBy_append,
    rules, entries]
  exact and_congr_right fun _ => and_iff_right defaults

end Bypass

/-! ## The whole of an installation and its guard -/

section Whole

variable (succeeds : Argv → Bool) (render : IpAddr → AddrText)

/-- The server's route through the gateway of the IPv6 default. -/
def hostRoute6 (gw serverIp : String) : Argv := routeStep true "add" serverIp ["via", gw]

/-- The IPv6 half is installed. -/
structure Reaches6 (host : Host) (server : SocketAddr) (tunName : String) (bits : BitVec 128)
    (gw6 iface6 : Word) : Prop where
  server : server.ip = .v6 bits
  gateway : host.gateway6 = some gw6
  iface : host.iface6 = some iface6
  hostRoute : succeeds (hostRoute6 gw6.1 (render (.v6 bits)).1)
  tunRoute : succeeds (tunStep true tunName)

/-- No entry of the bypass table but its default is added, in either family, as far as
    the installation gets there. -/
def NoBypassEntry (host : Host) (server : SocketAddr) (tunName : String) : Prop :=
  ∀ gw iface, host.gateway = some gw → host.iface = some iface →
    succeeds (lanStep gw.1 (render server.ip).1) → succeeds (tunStep false tunName) →
    (∀ step ∈ bypassEntries false iface.1 host.cidrs host.addrs, succeeds step = false) ∧
    ∀ bits gw6 iface6, Reaches6 succeeds render host server tunName bits gw6 iface6 →
      ∀ step ∈ bypassEntries true iface6.1 host.cidrs6 host.addrs6, succeeds step = false

theorem planStep_bypass (ip6 : Bool) (gw iface : String) (cidrs : List Network)
    (addrs : List String) :
    ∀ step ∈ bypassPlan gw iface (cidrs.map (·.1)) addrs ip6, PlanStep ip6 step := by
  intro step inside
  rw [bypassPlan_eq] at inside
  simp only [List.map_map, List.mem_append, List.mem_map, List.mem_singleton] at inside
  rcases inside with (⟨cidr, -, rfl⟩ | rfl) | ⟨addr, -, rfl⟩
  · exact planStep_route (network_ne (by decide)) (network_ne (by decide)) _
  · exact planStep_route (by decide) (by decide) _
  · exact planStep_rule addr

/-- Every command of the IPv6 half is for IPv6. -/
private theorem read_stepsLog {gw iface : String} {cidrs addrs : List String} :
    ∀ d ∈ stepsLog succeeds true (bypassPlan gw iface cidrs addrs true),
      ∃ object verb selector, readCommand d.1 = some ⟨true, object, verb, selector⟩ := by
  intro d inside
  obtain ⟨step, isStep, which⟩ := List.mem_flatMap.mp inside
  rw [bypassPlan_eq] at isStep
  simp only [List.mem_append, List.mem_map, List.mem_singleton] at isStep
  simp only [List.mem_cons, List.not_mem_nil, or_false] at which
  rcases isStep with (⟨cidr, -, rfl⟩ | rfl) | ⟨addr, -, rfl⟩
  · rcases which with rfl | rfl
    · exact ⟨_, _, _, by rw [issue, bypassRoute, asDelete_routeStep, readCommand_routeStep]⟩
    · exact ⟨_, _, _, readCommand_routeStep ..⟩
  · rcases which with rfl | rfl
    · exact ⟨_, _, _, by rw [issue, bypassDefault, asDelete_routeStep, readCommand_routeStep]⟩
    · exact ⟨_, _, _, readCommand_routeStep ..⟩
  · rcases which with rfl | rfl
    · exact ⟨_, _, _, by rw [issue, asDelete_ruleStep, readCommand_ruleStep]⟩
    · exact ⟨_, _, _, readCommand_ruleStep ..⟩

/-- The IPv6 half of a host that has an IPv6 default route. -/
private theorem installRouteAllV6_eq {host : Host} {server : SocketAddr} {bits : BitVec 128}
    {gw6 iface6 : Word} (isV6 : server.ip = .v6 bits) (gateway : host.gateway6 = some gw6)
    (iface : host.iface6 = some iface6) (tunName : String) (log : CommandLog) :
    let hostRoute := hostRoute6 gw6.1 (render (.v6 bits)).1
    installRouteAllV6 succeeds render host server tunName log =
      if succeeds hostRoute then
        if succeeds (tunStep true tunName) then
          (some {
            serverIp6 := (render (.v6 bits)).1, origGw6 := gw6.1, origIface6 := iface6.1
            bypassCidrs6 := [], bypassAddrs6 := [] },
           log ++ ([issue succeeds hostRoute, issue succeeds (tunStep true tunName)] ++
            stepsLog succeeds true
              (bypassPlan gw6.1 iface6.1 (host.cidrs6.map (·.1)) host.addrs6 true)))
        else (none, log ++ [issue succeeds hostRoute, issue succeeds (tunStep true tunName),
          issue succeeds (routeStep true "del" (render (.v6 bits)).1 ["via", gw6.1])])
      else (none, log ++ [issue succeeds hostRoute]) := by
  intro hostRoute
  have hostEq : ["-6", "route", "add", (render (.v6 bits)).1, "via", gw6.1] = hostRoute := rfl
  have tunEq : ["-6", "route", "add", "default", "dev", tunName, "metric", "1"] =
    tunStep true tunName := rfl
  have delEq : ["-6", "route", "del", (render (.v6 bits)).1, "via", gw6.1] =
    routeStep true "del" (render (.v6 bits)).1 ["via", gw6.1] := rfl
  have bypass := installBypassPlan_eq succeeds
    (planStep_bypass true gw6.1 iface6.1 host.cidrs6 host.addrs6) ([], [])
  simp only [installRouteAllV6, isV6, gateway, iface, hostEq, tunEq, delEq, bypass]
  cases succeeds hostRoute with
  | false => simp
  | true => cases succeeds (tunStep true tunName) <;> simp

/-- What the IPv6 half issues and returns: it undoes its own partial installation, or
    records everything but the entries of the bypass table. -/
theorem installRouteAllV6_spec (host : Host) (server : SocketAddr) (tunName : String)
    (log : CommandLog) :
    ∃ v6 tail, installRouteAllV6 succeeds render host server tunName log = (v6, log ++ tail) ∧
      (∀ d ∈ tail, ∃ object verb selector,
        readCommand d.1 = some ⟨true, object, verb, selector⟩) ∧
      ((v6 = none ∧ (∀ later, UndoneBy later tail) ∧
        ∀ bits gw6 iface6, ¬ Reaches6 succeeds render host server tunName bits gw6 iface6) ∨
       ∃ bits gw6 iface6, Reaches6 succeeds render host server tunName bits gw6 iface6 ∧
        v6 = some {
          serverIp6 := (render (.v6 bits)).1, origGw6 := gw6.1, origIface6 := iface6.1
          bypassCidrs6 := [], bypassAddrs6 := [] } ∧
        tail = [issue succeeds (hostRoute6 gw6.1 (render (.v6 bits)).1),
            issue succeeds (tunStep true tunName)] ++
          stepsLog succeeds true
            (bypassPlan gw6.1 iface6.1 (host.cidrs6.map (·.1)) host.addrs6 true)) := by
  by_cases there : ∃ bits gw6 iface6, server.ip = .v6 bits ∧ host.gateway6 = some gw6 ∧
      host.iface6 = some iface6
  · obtain ⟨bits, gw6, iface6, isV6, gateway, iface⟩ := there
    have unique : ∀ {bits' gw6' iface6'},
        Reaches6 succeeds render host server tunName bits' gw6' iface6' →
        bits' = bits ∧ gw6' = gw6 ∧ iface6' = iface6 := by
      rintro bits' gw6' iface6' ⟨isV6', gateway', iface', -, -⟩
      cases isV6.symm.trans isV6'
      cases gateway.symm.trans gateway'
      cases iface.symm.trans iface'
      exact ⟨rfl, rfl, rfl⟩
    have hostRead := readCommand_routeStep true "add" (render (.v6 bits)).1 ["via", gw6.1]
    have tunRead := readCommand_routeStep true "add" "default" ["dev", tunName, "metric", "1"]
    have delRead := readCommand_routeStep true "del" (render (.v6 bits)).1 ["via", gw6.1]
    rw [installRouteAllV6_eq succeeds render isV6 gateway iface]
    cases hostOk : succeeds (hostRoute6 gw6.1 (render (.v6 bits)).1) with
    | false =>
        refine ⟨none, _, rfl, ?_, .inl ⟨rfl, fun later => ?_, ?_⟩⟩
        · simp only [List.mem_singleton, forall_eq]
          exact ⟨_, _, _, hostRead⟩
        · exact ⟨fun ok => absurd ok (by simp [hostOk]), trivial⟩
        · intro bits' gw6' iface6' reached
          obtain ⟨rfl, rfl, rfl⟩ := unique reached
          exact absurd reached.hostRoute (by simp [hostOk])
    | true =>
        cases tunOk : succeeds (tunStep true tunName) with
        | false =>
            refine ⟨none, _, rfl, ?_, .inl ⟨rfl, fun later => ?_, ?_⟩⟩
            · simp only [List.forall_mem_cons, List.not_mem_nil, false_implies,
                implies_true, and_true]
              exact ⟨⟨_, _, _, hostRead⟩, ⟨_, _, _, tunRead⟩, ⟨_, _, _, delRead⟩⟩
            · -- the host route is deleted at once
              have undoes : Undoes (routeStep true "del" (render (.v6 bits)).1 ["via", gw6.1])
                  (hostRoute6 gw6.1 (render (.v6 bits)).1) :=
                undoes_routeStep true (List.Subset.refl _) rfl
              exact ⟨fun _ _ =>
                ⟨_, List.mem_append_left _ (List.mem_cons_of_mem _ List.mem_cons_self), undoes⟩,
                fun ok => absurd ok (by simp [tunOk]),
                fun _ isAdd => absurd isAdd (not_isAdd_of_del delRead rfl), trivial⟩
            · intro bits' gw6' iface6' reached
              obtain ⟨rfl, rfl, rfl⟩ := unique reached
              exact absurd reached.tunRoute (by simp [tunOk])
        | true =>
            refine ⟨_, _, rfl, ?_, .inr ⟨bits, gw6, iface6,
              ⟨isV6, gateway, iface, hostOk, tunOk⟩, rfl, rfl⟩⟩
            intro d inside
            rcases List.mem_append.mp inside with first | second
            · simp only [List.mem_cons, List.not_mem_nil, or_false] at first
              rcases first with rfl | rfl
              · exact ⟨_, _, _, hostRead⟩
              · exact ⟨_, _, _, tunRead⟩
            · exact read_stepsLog succeeds d second
  · refine ⟨none, [], ?_, by simp, .inl ⟨rfl, fun _ => trivial, ?_⟩⟩
    · unfold installRouteAllV6
      split
      · rename_i bits gw6 iface6 isV6 gateway iface
        exact absurd ⟨bits, gw6, iface6, isV6, gateway, iface⟩ there
      · rw [List.append_nil]
    · rintro bits gw6 iface6 ⟨isV6, gateway, iface, -, -⟩
      exact there ⟨bits, gw6, iface6, isV6, gateway, iface⟩

/-- A guard drops default routes and routes through a gateway, and no others. -/
def DropShape (argv : Argv) : Prop :=
  ∃ ip6 dst words, argv = routeStep ip6 "del" dst words ∧
    (dst = "default" ∨ ∃ gw, words = ["via", gw])

theorem DropShape.not_isAdd {argv : Argv} (shape : DropShape argv) : ¬ IsAdd argv := by
  obtain ⟨ip6, dst, words, rfl, -⟩ := shape
  exact not_isAdd_of_del (readCommand_routeStep ..) rfl

theorem DropShape.keeps_route {argv : Argv} (shape : DropShape argv) (ip6 : Bool) (iface : String)
    (cidr : Network) : ¬ Undoes argv (bypassRoute ip6 iface cidr.1) := by
  intro undoes
  obtain ⟨ip6', dst, words, rfl, isDefault | ⟨gw, isVia⟩⟩ := shape
  · have same := dst_of_undoes undoes (readCommand_routeStep ..)
    exact network_ne (by decide) (same.symm.trans isDefault)
  · obtain ⟨selector, read, subset⟩ := undoes.of_routeStep
    rw [isVia, readCommand_routeStep] at read
    cases read
    have named := subset (List.mem_cons_of_mem _ List.mem_cons_self)
    simp [attributes] at named

theorem DropShape.keeps_rule {argv : Argv} (shape : DropShape argv) (ip6 : Bool) (addr : String) :
    ¬ Undoes argv (ruleStep ip6 "add" addr) := by
  intro undoes
  obtain ⟨ip6', dst, words, rfl, -⟩ := shape
  obtain ⟨selector, read, -⟩ := undoes.of_ruleStep
  rw [readCommand_routeStep] at read
  cases read

/-- The guard records nothing of the bypass tables. -/
def RouteGuard.Unrecorded (guard : RouteGuard) : Prop :=
  guard.bypassCidrs = [] ∧ guard.bypassAddrs = [] ∧ guard.bypassCidrs6 = [] ∧
    guard.bypassAddrs6 = []

theorem RouteGuard.Unrecorded.dropShape {guard : RouteGuard} (unrecorded : guard.Unrecorded) :
    ∀ argv ∈ guard.dropCommands, DropShape argv := by
  obtain ⟨cidrs, addrs, cidrs6, addrs6⟩ := unrecorded
  have bypass : ∀ iface ip6, ∀ argv ∈ removeBypass iface [] [] ip6, DropShape argv := by
    intro iface ip6 argv inside
    rw [removeBypass] at inside
    split at inside
    · cases inside
    · simp only [List.map_nil, List.nil_append, List.mem_singleton] at inside
      exact ⟨ip6, "default", ["table", BYPASS_TABLE], inside, .inl rfl⟩
  intro argv inside
  simp only [dropCommands, cidrs, addrs, cidrs6, addrs6, List.mem_append,
    List.mem_singleton] at inside
  rcases inside with (((((first | second) | tun) | tun6) | lan) | server) | server6
  · exact bypass _ _ argv first
  · exact bypass _ _ argv second
  · exact ⟨false, "default", ["dev", guard.tunName], tun, .inl rfl⟩
  · split at tun6
    · exact ⟨true, "default", ["dev", guard.tunName], List.mem_singleton.mp tun6, .inl rfl⟩
    · cases tun6
  · obtain ⟨route, -, rfl⟩ := List.mem_map.mp lan
    exact ⟨false, route.1, ["via", route.2], rfl, .inr ⟨_, rfl⟩⟩
  · split at server
    · exact ⟨false, guard.serverIp, ["via", guard.origGw], List.mem_singleton.mp server,
        .inr ⟨_, rfl⟩⟩
    · cases server
  · split at server6
    · exact ⟨true, guard.serverIp6, ["via", guard.origGw6], List.mem_singleton.mp server6,
        .inr ⟨_, rfl⟩⟩
    · cases server6

/-! What a guard deletes. -/

section Drops

variable (guard : RouteGuard)

private theorem mem_removeBypass {iface : String} (named : iface ≠ "") (cidrs addrs : List String)
    (ip6 : Bool) : routeStep ip6 "del" "default" ["table", BYPASS_TABLE] ∈
      RouteGuard.removeBypass iface cidrs addrs ip6 := by
  rw [RouteGuard.removeBypass, if_neg named]
  exact List.mem_append_right _ (List.mem_singleton.mpr rfl)

theorem drops_bypassDefault (named : guard.origIface ≠ "") :
    routeStep false "del" "default" ["table", BYPASS_TABLE] ∈ guard.dropCommands := by
  simp only [RouteGuard.dropCommands, List.mem_append]
  exact .inl (.inl (.inl (.inl (.inl (.inl (mem_removeBypass named _ _ false))))))

theorem drops_bypassDefault6 (named : guard.origIface6 ≠ "") :
    routeStep true "del" "default" ["table", BYPASS_TABLE] ∈ guard.dropCommands := by
  simp only [RouteGuard.dropCommands, List.mem_append]
  exact .inl (.inl (.inl (.inl (.inl (.inr (mem_removeBypass named _ _ true))))))

theorem drops_tun :
    routeStep false "del" "default" ["dev", guard.tunName] ∈ guard.dropCommands := by
  simp only [RouteGuard.dropCommands, List.mem_append, List.mem_singleton]
  exact .inl (.inl (.inl (.inl (.inr rfl))))

theorem drops_tun6 (installed : guard.serverIp6 ≠ "") :
    routeStep true "del" "default" ["dev", guard.tunName] ∈ guard.dropCommands := by
  simp only [RouteGuard.dropCommands, List.mem_append, if_pos installed, List.mem_singleton]
  exact .inl (.inl (.inl (.inr rfl)))

theorem drops_lan {lan : String × String} (recorded : lan ∈ guard.lanRoutes) :
    routeStep false "del" lan.1 ["via", lan.2] ∈ guard.dropCommands := by
  simp only [RouteGuard.dropCommands, List.mem_append]
  exact .inl (.inl (.inr (List.mem_map.mpr ⟨lan, recorded, rfl⟩)))

theorem drops_server (named : guard.serverIp ≠ "") :
    routeStep false "del" guard.serverIp ["via", guard.origGw] ∈ guard.dropCommands := by
  simp only [RouteGuard.dropCommands, List.mem_append, if_pos named, List.mem_singleton]
  exact .inl (.inr rfl)

theorem drops_server6 (installed : guard.serverIp6 ≠ "") :
    routeStep true "del" guard.serverIp6 ["via", guard.origGw6] ∈ guard.dropCommands := by
  simp only [RouteGuard.dropCommands, List.mem_append, if_pos installed, List.mem_singleton]
  exact .inr rfl

end Drops

/-- The main plan is undone by what deletes its steps. -/
private theorem undoneBy_main (gw serverIp tunName : String) (cidrs : List String)
    (later : CommandLog) (server : ∃ d ∈ later, Undoes d.1 (lanStep gw serverIp))
    (lan : ∀ cidr ∈ cidrs, succeeds (lanStep gw cidr) → ∃ d ∈ later,
      Undoes d.1 (lanStep gw cidr)) (tun : succeeds (tunStep false tunName) → ∃ d ∈ later,
      Undoes d.1 (tunStep false tunName)) :
    UndoneBy later (issue succeeds (lanStep gw serverIp) ::
      (cidrs.map fun cidr => issue succeeds (lanStep gw cidr)) ++
      [issue succeeds (tunStep false tunName)]) := by
  refine undoneBy_of_later fun e inside ok => ?_
  simp only [List.cons_append, List.mem_cons, List.mem_append, List.mem_map, List.not_mem_nil,
    or_false] at inside
  rcases inside with rfl | ⟨cidr, isCidr, rfl⟩ | rfl
  · exact server
  · exact lan cidr isCidr ok
  · exact tun ok

/-- After a failed installation everything it added has been deleted. -/
private theorem undone_rollback {gw serverIp tunName : String} {cidrs : List String}
    (failed : succeeds (tunStep false tunName) = false) :
    UndoneBy [] (issue succeeds (lanStep gw serverIp) ::
      (cidrs.map fun cidr => issue succeeds (lanStep gw cidr)) ++
      [issue succeeds (tunStep false tunName)] ++
      (lanStep gw serverIp :: (cidrs.filter fun cidr => succeeds (lanStep gw cidr)).map
        (lanStep gw)).reverse.map fun done => issue succeeds (asDelete 1 done)) := by
  have undoes : ∀ cidr, Undoes (asDelete 1 (lanStep gw cidr)) (lanStep gw cidr) := fun cidr =>
    undoes_routeStep false (List.Subset.refl _) rfl
  have rolledBack : ∀ step ∈ lanStep gw serverIp :: (cidrs.filter fun cidr =>
      succeeds (lanStep gw cidr)).map (lanStep gw), ∃ cidr, step = lanStep gw cidr := by
    intro step inside
    rcases List.mem_cons.mp inside with rfl | isLan
    · exact ⟨serverIp, rfl⟩
    · obtain ⟨cidr, -, rfl⟩ := List.mem_map.mp isLan
      exact ⟨cidr, rfl⟩
  rw [undoneBy_append]
  constructor
  · refine undoneBy_main succeeds _ _ _ _ _ ?_ (fun cidr isCidr ok => ?_) (fun ok => ?_)
    · exact ⟨issue succeeds (asDelete 1 (lanStep gw serverIp)), by simp, undoes _⟩
    · refine ⟨issue succeeds (asDelete 1 (lanStep gw cidr)), ?_, undoes _⟩
      simp only [List.append_nil, List.mem_map, List.mem_reverse]
      exact ⟨lanStep gw cidr, List.mem_cons_of_mem _ (List.mem_map_of_mem
        (List.mem_filter.mpr ⟨isCidr, ok⟩)), rfl⟩
    · rw [failed] at ok
      cases ok
  · refine undoneBy_of_none fun e inside _ => ?_
    obtain ⟨step, isStep, rfl⟩ := List.mem_map.mp inside
    obtain ⟨cidr, rfl⟩ := rolledBack step (List.mem_reverse.mp isStep)
    exact not_isAdd_of_del (readCommand_routeStep false "del" cidr ["via", gw]) rfl

/-- What an installed route-all and its guard issue, in order. -/
private theorem undone_installed_iff (host : Host) {gw iface : Word} {serverIp tunName : String}
    (named : serverIp ≠ "") {guard : RouteGuard} {tail : CommandLog}
    (unrecorded : guard.Unrecorded) (sameServer : guard.serverIp = serverIp)
    (sameGw : guard.origGw = gw.1) (sameTun : guard.tunName = tunName)
    (sameIface : guard.origIface = iface.1)
    (lanRoutes : ∀ cidr ∈ host.cidrs.map (·.1), succeeds (lanStep gw.1 cidr) →
      (cidr, gw.1) ∈ guard.lanRoutes)
    (family : ∀ d ∈ tail, ∃ object verb selector,
      readCommand d.1 = some ⟨true, object, verb, selector⟩) :
    UndoneBy [] ((issue succeeds (lanStep gw.1 serverIp) ::
        ((host.cidrs.map (·.1)).map fun cidr => issue succeeds (lanStep gw.1 cidr)) ++
        [issue succeeds (tunStep false tunName)] ++
      stepsLog succeeds false
        (bypassPlan gw.1 iface.1 (host.cidrs.map (·.1)) host.addrs false) ++ tail) ++
      guard.dropCommands.map (issue succeeds)) ↔
    (∀ step ∈ bypassEntries false iface.1 host.cidrs host.addrs, succeeds step = false) ∧
      UndoneBy (guard.dropCommands.map (issue succeeds)) tail := by
  have shapes : ∀ d ∈ guard.dropCommands.map (issue succeeds), DropShape d.1 := by
    intro d inside
    obtain ⟨argv, isDrop, rfl⟩ := List.mem_map.mp inside
    exact unrecorded.dropShape argv isDrop
  have dropped : ∀ {later : CommandLog} {argv : Argv}, argv ∈ guard.dropCommands →
      issue succeeds argv ∈ later ++ guard.dropCommands.map (issue succeeds) := fun isDrop =>
    List.mem_append_right _ (List.mem_map_of_mem isDrop)
  -- the commands of the other family leave the IPv4 entries alone
  have other : ∀ d ∈ tail, ∀ step c, readCommand step = some c → c.ip6 =
    false → ¬ Undoes d.1 step := by
    rintro d inside step c readStep isV4 ⟨d', a, readDel, readAdd, -, -, sameFamily, -⟩
    obtain ⟨object, verb, selector, read⟩ := family d inside
    cases read.symm.trans readDel
    cases readStep.symm.trans readAdd
    rw [isV4] at sameFamily
    cases sameFamily
  have own : UndoneBy [] (guard.dropCommands.map (issue succeeds)) :=
    undoneBy_of_none fun d inside _ => (shapes d inside).not_isAdd
  have main := fun later : CommandLog => undoneBy_main succeeds gw.1 serverIp tunName
    (host.cidrs.map (·.1)) (later ++ guard.dropCommands.map (issue succeeds))
    ⟨_, dropped (drops_server guard (sameServer ▸ named)),
      by rw [sameServer, sameGw]; exact undoes_routeStep false (List.Subset.refl _) rfl⟩
    (fun cidr isCidr ok => ⟨_, dropped (drops_lan guard (lanRoutes cidr isCidr ok)),
      undoes_routeStep false (List.Subset.refl _) rfl⟩)
    (fun _ => ⟨_, dropped (drops_tun guard), by
      rw [sameTun]
      exact undoes_routeStep false (by simp [attributes]) rfl⟩)
  have bypass := undoneBy_bypass_iff succeeds false gw.1 iface.1
    (tail ++ guard.dropCommands.map (issue succeeds)) host.cidrs_nodup host.addrs_nodup
    ⟨_, dropped (drops_bypassDefault guard (sameIface ▸ iface.2)),
      undoes_routeStep false (by simp [attributes]) rfl⟩
    (fun cidr d inside => by
      rcases List.mem_append.mp inside with near | far
      · exact other d near _ _ (readCommand_routeStep ..) rfl
      · exact (shapes d far).keeps_route false iface.1 cidr)
    (fun addr d inside => by
      rcases List.mem_append.mp inside with near | far
      · exact other d near _ _ (readCommand_ruleStep ..) rfl
      · exact (shapes d far).keeps_rule false addr)
  rw [undoneBy_append, List.append_nil, undoneBy_append, undoneBy_append, bypass,
    ← List.append_assoc]
  exact ⟨fun undone => ⟨undone.1.1.2, undone.1.2⟩, fun undone =>
    ⟨⟨⟨main _, undone.1⟩, undone.2⟩, own⟩⟩

/-- The IPv6 half and the guard's part of it. -/
private theorem undone_installed6_iff (host : Host) {gw6 iface6 : Word} {serverIp6 tunName : String}
    (named : serverIp6 ≠ "") {guard : RouteGuard} (unrecorded : guard.Unrecorded)
    (sameServer : guard.serverIp6 = serverIp6) (sameGw : guard.origGw6 = gw6.1)
    (sameTun : guard.tunName = tunName) (sameIface : guard.origIface6 = iface6.1) :
    UndoneBy (guard.dropCommands.map (issue succeeds))
      ([issue succeeds (hostRoute6 gw6.1 serverIp6), issue succeeds (tunStep true tunName)] ++
        stepsLog succeeds true
        (bypassPlan gw6.1 iface6.1 (host.cidrs6.map (·.1)) host.addrs6 true)) ↔
    ∀ step ∈ bypassEntries true iface6.1 host.cidrs6 host.addrs6, succeeds step = false := by
  have shapes : ∀ d ∈ guard.dropCommands.map (issue succeeds), DropShape d.1 := by
    intro d inside
    obtain ⟨argv, isDrop, rfl⟩ := List.mem_map.mp inside
    exact unrecorded.dropShape argv isDrop
  have dropped : ∀ {argv : Argv}, argv ∈ guard.dropCommands →
      issue succeeds argv ∈ guard.dropCommands.map (issue succeeds) := List.mem_map_of_mem
  have bypass := undoneBy_bypass_iff succeeds true gw6.1 iface6.1
    (guard.dropCommands.map (issue succeeds)) host.cidrs6_nodup host.addrs6_nodup
    ⟨_, dropped (drops_bypassDefault6 guard (sameIface ▸ iface6.2)),
      undoes_routeStep true (by simp [attributes]) rfl⟩
    (fun cidr d inside => (shapes d inside).keeps_route true iface6.1 cidr)
    (fun addr d inside => (shapes d inside).keeps_rule true addr)
  have serverUndone : Undoes (routeStep true "del" guard.serverIp6 ["via", guard.origGw6])
      (hostRoute6 gw6.1 serverIp6) := by
    rw [sameServer, sameGw]
    exact undoes_routeStep true (List.Subset.refl _) rfl
  have tunUndone : Undoes (routeStep true "del" "default" ["dev", guard.tunName])
    (tunStep true tunName) := by
    rw [sameTun]
    exact undoes_routeStep true (by simp [attributes]) rfl
  have routes : UndoneBy (stepsLog succeeds true (bypassPlan gw6.1 iface6.1 (host.cidrs6.map (·.1))
      host.addrs6 true) ++ guard.dropCommands.map (issue succeeds))
      [issue succeeds (hostRoute6 gw6.1 serverIp6), issue succeeds (tunStep true tunName)] := by
    refine undoneBy_of_later fun e inside ok => ?_
    simp only [List.mem_cons, List.not_mem_nil, or_false] at inside
    rcases inside with rfl | rfl
    · exact ⟨_, List.mem_append_right _ (dropped (drops_server6 guard (sameServer ▸ named))),
        serverUndone⟩
    · exact ⟨_, List.mem_append_right _ (dropped (drops_tun6 guard (sameServer ▸ named))),
        tunUndone⟩
  rw [undoneBy_append, bypass]
  exact and_iff_right routes

/-- Every addition that succeeds is undone, by the installation or by dropping the
    guard, exactly when no entry of the bypass table but its default is added. -/
theorem lifetime_undone_iff (host : Host) (server : SocketAddr) (tunName : String) :
    UndoneBy [] (lifetimeLog succeeds render host server tunName) ↔
      NoBypassEntry succeeds render host server tunName := by
  cases gateway : host.gateway with
  | none => simp [lifetimeLog, installRouteAll, gateway, UndoneBy, NoBypassEntry]
  | some gw =>
      cases isIface : host.iface with
      | none => simp [lifetimeLog, installRouteAll, gateway, isIface, UndoneBy, NoBypassEntry]
      | some iface =>
          have plain : ∀ cidr ∈ host.cidrs.map (·.1), cidr ≠ "default" ∧
            cidr ≠ (render server.ip).1 := by
            intro cidr inside
            obtain ⟨network, -, rfl⟩ := List.mem_map.mp inside
            exact ⟨network_ne (by decide), network_ne (render server.ip).2.2⟩
          have main := installMain_spec succeeds gw.1 tunName plain
          have bypass := installBypassPlan_eq succeeds
            (planStep_bypass false gw.1 iface.1 host.cidrs host.addrs) ([], [])
          have condition : NoBypassEntry succeeds render host server tunName ↔
              (succeeds (lanStep gw.1 (render server.ip).1) → succeeds (tunStep false tunName) →
                (∀ step ∈ bypassEntries false iface.1 host.cidrs host.addrs,
                  succeeds step = false) ∧ ∀ bits gw6 iface6,
                Reaches6 succeeds render host server tunName bits gw6 iface6 → ∀ step ∈
                  bypassEntries true iface6.1 host.cidrs6 host.addrs6, succeeds step = false) := by
            constructor
            · exact fun none => none gw iface gateway isIface
            · intro none gw' iface' gateway' isIface'
              cases gateway.symm.trans gateway'
              cases isIface.symm.trans isIface'
              exact none
          rw [condition, lifetimeLog, installRouteAll]
          simp only [gateway, isIface, main, bypass]
          cases serverOk : succeeds (lanStep gw.1 (render server.ip).1) with
          | false => simp [UndoneBy, issue, serverOk]
          | true =>
              cases tunOk : succeeds (tunStep false tunName) with
              | false => simpa using undone_rollback succeeds tunOk
              | true =>
                  simp only [if_true, true_implies]
                  generalize started : issue succeeds (lanStep gw.1 (render server.ip).1) :: _ ++
                    _ ++ stepsLog succeeds false _ = log
                  obtain ⟨v6, tail, ran, family, half⟩ :=
                    installRouteAllV6_spec succeeds render host server tunName log
                  simp only [ran]
                  rw [← started]
                  have lan : ∀ cidr ∈ host.cidrs.map (·.1), succeeds (lanStep gw.1 cidr) →
                      (cidr, gw.1) ∈ ((host.cidrs.map (·.1)).filter fun cidr =>
                        succeeds (lanStep gw.1 cidr)).map (·, gw.1) := fun cidr isCidr ok =>
                    List.mem_map_of_mem (List.mem_filter.mpr ⟨isCidr, ok⟩)
                  have recorded : RouteGuard.Unrecorded {
                      serverIp := (render server.ip).1, origGw := gw.1, tunName := tunName
                      lanRoutes := ((host.cidrs.map (·.1)).filter fun cidr =>
                        succeeds (lanStep gw.1 cidr)).map (·, gw.1)
                      serverIp6 := (v6.getD {}).serverIp6, origGw6 := (v6.getD {}).origGw6
                      origIface := iface.1, bypassCidrs := [], bypassAddrs := []
                      origIface6 := (v6.getD {}).origIface6
                      bypassCidrs6 := (v6.getD {}).bypassCidrs6
                      bypassAddrs6 := (v6.getD {}).bypassAddrs6 } := by
                    rcases half with ⟨rfl, -⟩ | ⟨_, _, _, -, rfl, -⟩
                    · exact ⟨rfl, rfl, rfl, rfl⟩
                    · exact ⟨rfl, rfl, rfl, rfl⟩
                  refine (undone_installed_iff succeeds host (render server.ip).2.1 recorded rfl rfl
                    rfl rfl lan family).trans (and_congr_right fun _ => ?_)
                  rcases half with ⟨rfl, undone, unreached⟩ | ⟨bits, gw6, iface6,
                    reached, rfl, rfl⟩
                  · exact iff_of_true (undone _)
                      fun bits gw6 iface6 reached => absurd reached (unreached bits gw6 iface6)
                  · refine (undone_installed6_iff succeeds host (render (.v6 bits)).2.1 recorded
                      rfl rfl rfl rfl).trans ⟨fun failed bits' gw6' iface6' reached' => ?_,
                      fun failed => failed bits gw6 iface6 reached⟩
                    cases reached.iface.symm.trans reached'.iface
                    exact failed

end Whole

/-- A host with one subnet and one address, and no IPv6. -/
def homeHost : Host where
  gateway := some ⟨"192.168.1.1", by decide⟩
  iface := some ⟨"eth0", by decide⟩
  cidrs := [⟨"192.168.1.0/24", by decide⟩]
  addrs := ["192.168.1.20"]
  gateway6 := none
  iface6 := none
  cidrs6 := []
  addrs6 := []
  cidrs_nodup := List.nodup_singleton _
  addrs_nodup := List.nodup_singleton _
  cidrs6_nodup := List.nodup_nil
  addrs6_nodup := List.nodup_nil

/-- Every command succeeds, and dropping the guard leaves the subnet's route and the
    address's rule in place. -/
theorem homeHost_left_behind :
    ¬ UndoneBy [] (lifetimeLog (fun _ => true) (fun _ => ⟨"203.0.113.7", by decide⟩) homeHost
      ⟨.v4 0xCB007107, 51820⟩ "tun0") := by
  decide

end Rustnies
