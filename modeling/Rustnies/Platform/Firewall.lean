import Rustnies.Carrier
import Rustnies.Lib.Table

/-! # The firewall layer

`platform/linux.rs`: the kill switch and the DNS leak guard. Both are lists of
`FirewallOp`s, built as data and applied through a backend that may fail. The
production backend runs every chain operation on the IPv4 table and, when that
succeeded, on the IPv6 table. `evaluatePacket` is the program's own simulation of
a packet's way through the chains.

Addresses and ports are kept as values where the program renders them into the
arguments of a command: a rule matches when the renderings are equal.
-/

namespace Rustnies

inductive FirewallFamily where
  | ipv4
  | ipv6
  deriving Repr, DecidableEq

def IpAddr.family : IpAddr → FirewallFamily
  | .v4 _ => .ipv4
  | .v6 _ => .ipv6

/-- `-j <target>`. -/
inductive Target where
  | accept
  | reject
  | drop
  | other (name : String)
  deriving Repr, DecidableEq

/-- One rule, the arguments after the chain name. -/
structure FirewallRuleSpec where
  family : FirewallFamily
  proto : Option String
  dport : Option UInt16
  outIface : Option String
  negOutIface : Bool
  dst : Option IpAddr
  target : Target
  deriving Repr, DecidableEq

inductive FirewallOp where
  | createChain (chain : String)
  | flushChain (chain : String)
  | deleteChain (chain : String)
  | append (chain : String) (rule : FirewallRuleSpec)
  | delete (chain : String) (rule : FirewallRuleSpec)
  | jump (source : String) (target : String)
  | unjump (source : String) (target : String)
  deriving Repr, DecidableEq

inductive Decision where
  | accept
  | reject
  | pass
  deriving Repr, DecidableEq

inductive Entry where
  | rule (spec : FirewallRuleSpec)
  | jump (target : String)
  deriving Repr, DecidableEq

/-- The ordered entries of each chain. -/
abbrev Chains := Table String (List Entry)

/-- The attributes of a packet that rules look at. -/
structure Packet where
  proto : String
  dst : IpAddr
  dport : UInt16
  outIface : String
  deriving Repr, DecidableEq

/-! ## Evaluation -/

def ruleMatches (rule : FirewallRuleSpec) (packet : Packet) : Bool :=
  rule.family == packet.dst.family &&
  (match rule.proto with | some p => p == packet.proto | none => true) &&
  (match rule.dport with | some d => d == packet.dport | none => true) &&
  (match rule.dst with | some d => d == packet.dst | none => true) &&
  (match rule.outIface with
   | some o => if rule.negOutIface then o != packet.outIface else o == packet.outIface
   | none => true)

def Target.decision : Target → Decision
  | .accept => .accept
  | .reject | .drop => .reject
  | .other _ => .pass

/-- The loop over the entries of one chain: `none` when it runs to its end, and
    otherwise the decision it returns. A jump is taken by `visit`, which threads
    the visited chains. -/
def walk (packet : Packet) (visit : String → List String → Decision × List String) :
    List Entry → List String → Option Decision × List String
  | [], visited => (none, visited)
  | .rule spec :: entries, visited =>
      if ruleMatches spec packet then (some spec.target.decision, visited)
      else walk packet visit entries visited
  | .jump target :: entries, visited =>
      let (decision, visited) := visit target visited
      if decision ≠ .pass then (some decision, visited) else walk packet visit entries visited

/-- `traverse`, with a bound on the depth of the jumps. A chain is entered once, so
    the number of chains is enough. -/
def traverse (chains : Chains) (packet : Packet) :
    Nat → String → List String → Decision × List String
  | 0, _, visited => (.pass, visited)
  | depth + 1, chain, visited =>
      if chain ∈ visited then (.pass, visited)
      else
        match AList.lookup chain chains with
        | none => (.pass, visited ++ [chain])
        | some entries =>
            let (decision, visited) :=
              walk packet (traverse chains packet depth) entries (visited ++ [chain])
            (decision.getD .pass, visited)

def OUTPUT : String := "OUTPUT"

def evaluate (chains : Chains) (packet : Packet) : Decision :=
  (traverse chains packet (chains.keys.length + 1) OUTPUT []).1

/-- How `evaluate_packet` replays one recorded operation; here none fails. -/
def FirewallOp.replay (chains : Chains) : FirewallOp → Chains
  | .createChain chain =>
      if chain ∈ chains then chains else AList.insert chain [] chains
  | .flushChain chain =>
      if chain ∈ chains then AList.insert chain [] chains else chains
  | .deleteChain chain => AList.erase chain chains
  | .append chain rule =>
      AList.insert chain ((AList.lookup chain chains).getD [] ++ [.rule rule]) chains
  | .delete chain rule =>
      match AList.lookup chain chains with
      | some entries => AList.insert chain (entries.erase (.rule rule)) chains
      | none => chains
  | .jump source target =>
      AList.insert source ((AList.lookup source chains).getD [] ++ [.jump target]) chains
  | .unjump source target =>
      match AList.lookup source chains with
      | some entries => AList.insert source (entries.erase (.jump target)) chains
      | none => chains

def evaluatePacket (ops : List FirewallOp) (packet : Packet) : Decision :=
  evaluate (ops.foldl FirewallOp.replay ∅) packet

/-! ## The rules -/

def KS_CHAIN : String := "RUSTNIES_KS"
def DNS_CHAIN : String := "RUSTNIES_DNS"

/-- `-j <target>` alone, which every rule below restricts. -/
def FirewallRuleSpec.all (family : FirewallFamily) (target : Target) : FirewallRuleSpec where
  family := family
  proto := none
  dport := none
  outIface := none
  negOutIface := false
  dst := none
  target := target

def FirewallFamily.both : List FirewallFamily := [.ipv4, .ipv6]

/-- Loopback, the TUN and the server's UDP endpoint, then nothing. -/
def ksFamilyRules (server : SocketAddr) (tunName : String) (family : FirewallFamily) :
    List FirewallRuleSpec :=
  [{ FirewallRuleSpec.all family .accept with outIface := some "lo" },
   { FirewallRuleSpec.all family .accept with outIface := some tunName }] ++
  (if family = server.ip.family then
    [{ FirewallRuleSpec.all family .accept with
        proto := some "udp", dport := some server.port, dst := some server.ip }]
   else []) ++
  [FirewallRuleSpec.all family .reject]

def ksRules (server : SocketAddr) (tunName : String) : List FirewallRuleSpec :=
  FirewallFamily.both.flatMap (ksFamilyRules server tunName)

/-- Port 53 through the TUN, and through nothing else. -/
def dnsFamilyRules (tunName : String) (family : FirewallFamily) : List FirewallRuleSpec :=
  [{ FirewallRuleSpec.all family .accept with
      proto := some "udp", dport := some 53, outIface := some tunName },
   { FirewallRuleSpec.all family .accept with
      proto := some "tcp", dport := some 53, outIface := some tunName },
   { FirewallRuleSpec.all family .reject with
      proto := some "udp", dport := some 53, outIface := some tunName, negOutIface := true },
   { FirewallRuleSpec.all family .reject with
      proto := some "tcp", dport := some 53, outIface := some tunName, negOutIface := true }]

def dnsRules (tunName : String) : List FirewallRuleSpec :=
  FirewallFamily.both.flatMap (dnsFamilyRules tunName)

def removeOps (chain : String) : List FirewallOp :=
  [.unjump OUTPUT chain, .flushChain chain, .deleteChain chain]

def installOps (chain : String) (rules : List FirewallRuleSpec) : List FirewallOp :=
  [.unjump OUTPUT chain, .flushChain chain, .deleteChain chain, .createChain chain] ++
    rules.map (.append chain) ++ [.jump OUTPUT chain]

/-! ## Applying operations -/

/-- What executes the operations: whether one succeeded, and what it leaves behind
    either way. -/
structure FirewallBackend (σ : Type) where
  exec : σ → FirewallOp → Bool × σ

namespace FirewallBackend

variable {σ : Type} (backend : FirewallBackend σ)

/-- The loop of `apply_required` from the operation at index `i`. -/
def applyFrom (i : Nat) : List FirewallOp → σ → Bool × σ
  | [], s => (true, s)
  | op :: ops, s =>
      let (ok, s) := backend.exec s op
      if i < 3 ∨ ok then applyFrom (i + 1) ops s else (false, s)

def applyRequired (ops : List FirewallOp) (s : σ) : Bool × σ := backend.applyFrom 0 ops s

def applyBestEffort (ops : List FirewallOp) (s : σ) : σ :=
  ops.foldl (fun s op => (backend.exec s op).2) s

end FirewallBackend

/-- `KillSwitch` and `DnsLeakGuard`, which differ in their chain and rules only. -/
structure Guard where
  chain : String
  ops : List FirewallOp
  active : Bool
  deriving Repr, DecidableEq

namespace Guard

variable {σ : Type} (backend : FirewallBackend σ)

def new (chain : String) (rules : List FirewallRuleSpec) : Guard where
  chain := chain
  ops := installOps chain rules
  active := false

/-- On a failure the teardown is run, errors ignored. -/
def install (guard : Guard) (s : σ) : Bool × Guard × σ :=
  match backend.applyRequired guard.ops s with
  | (true, s) => (true, { guard with active := true }, s)
  | (false, s) => (false, guard, backend.applyBestEffort (removeOps guard.chain) s)

def remove (guard : Guard) (s : σ) : Guard × σ :=
  if !guard.active then (guard, s)
  else ({ guard with active := false }, backend.applyBestEffort (removeOps guard.chain) s)

end Guard

def KillSwitch.new (server : SocketAddr) (tunName : String) : Guard :=
  .new KS_CHAIN (ksRules server tunName)

def DnsLeakGuard.new (tunName : String) : Guard :=
  .new DNS_CHAIN (dnsRules tunName)

/-- The test backend: it records every operation and never fails. -/
def RecordedBackend : FirewallBackend (List FirewallOp) where
  exec recorded op := (true, recorded ++ [op])

/-- The family of a rule operation; a chain operation has none. -/
def FirewallOp.ruleFamily : FirewallOp → Option FirewallFamily
  | .append _ rule | .delete _ rule => some rule.family
  | _ => none

/-- The production backend, over one table for each family and the command that
    runs an operation on a table: a chain operation goes to both, to the second only
    after the first succeeded, and a rule operation to the table of its family. -/
def IptablesBackend {α : Type} (run : α → FirewallOp → Option α) :
    FirewallBackend (α × α) where
  exec tables op :=
    match op.ruleFamily with
    | some .ipv4 =>
        match run tables.1 op with
        | some v4 => (true, v4, tables.2)
        | none => (false, tables)
    | some .ipv6 =>
        match run tables.2 op with
        | some v6 => (true, tables.1, v6)
        | none => (false, tables)
    | none =>
        match run tables.1 op with
        | none => (false, tables)
        | some v4 =>
            match run tables.2 op with
            | some v6 => (true, v4, v6)
            | none => (false, v4, tables.2)

end Rustnies
