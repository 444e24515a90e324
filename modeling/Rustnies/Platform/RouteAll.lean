import Rustnies.Platform.Firewall

/-! # Route-all

`platform/linux.rs`: the routes and policy rules a client adds so that everything
goes through the tunnel, and the guard that takes them away. Every step is an
`ip` command given by its arguments, each may fail, and what the guard removes is
rebuilt from strings that the installation recorded.

The model logs every command that changes something, with its outcome. An
addition is attempted at most once, so an outcome for each argument list is an
outcome for each attempt.
-/

namespace Rustnies

abbrev Argv := List String

/-- The commands issued so far, with their outcomes. -/
abbrev CommandLog := List (Argv × Bool)

/-- The text of an address, of an interface, or of another word that `ip` prints. -/
abbrev Word := { text : String // text ≠ "" }

/-- The text of an address: no prefix length. -/
abbrev AddrText := { text : String // text ≠ "" ∧ '/' ∉ text.toList }

/-- The text of a masked network, an address and a prefix length. -/
abbrev Network := { text : String // '/' ∈ text.toList }

def BYPASS_TABLE : String := "100"
def BYPASS_RULE_PRIO : String := "20000"

/-! ## The plans -/

def routeAllPlan (serverIp origGw : String) (lanCidrs : List String) (tunName : String) :
    List Argv :=
  [["route", "add", serverIp, "via", origGw]] ++
  (lanCidrs.map fun cidr => ["route", "add", cidr, "via", origGw]) ++
  [["route", "add", "default", "dev", tunName, "metric", "1"]]

/-- The family prefix of every step. -/
def ipPrefix (ip6 : Bool) : Argv := if ip6 then ["-6"] else []

def bypassPlan (origGw origIface : String) (lanCidrs localAddrs : List String) (ip6 : Bool) :
    List Argv :=
  (lanCidrs.map fun cidr =>
    ipPrefix ip6 ++ ["route", "add", cidr, "dev", origIface, "table", BYPASS_TABLE]) ++
  [ipPrefix ip6 ++ ["route", "add", "default", "via", origGw, "dev", origIface, "table",
    BYPASS_TABLE]] ++
  (localAddrs.map fun addr =>
    ipPrefix ip6 ++ ["rule", "add", "from", addr, "table", BYPASS_TABLE, "priority",
      BYPASS_RULE_PRIO])

/-! ## The guard -/

structure RouteGuard where
  serverIp : String
  origGw : String
  tunName : String
  lanRoutes : List (String × String)
  serverIp6 : String
  origGw6 : String
  origIface : String
  bypassCidrs : List String
  bypassAddrs : List String
  origIface6 : String
  bypassCidrs6 : List String
  bypassAddrs6 : List String
  deriving Repr, DecidableEq

namespace RouteGuard

/-- The commands of `remove_bypass`. -/
def removeBypass (iface : String) (cidrs addrs : List String) (ip6 : Bool) : List Argv :=
  if iface = "" then []
  else
    (addrs.map fun addr =>
      ipPrefix ip6 ++
        ["rule", "del", "from", addr, "table", BYPASS_TABLE, "priority", BYPASS_RULE_PRIO]) ++
    (cidrs.map fun cidr =>
      ipPrefix ip6 ++ ["route", "del", cidr, "dev", iface, "table", BYPASS_TABLE]) ++
    [ipPrefix ip6 ++ ["route", "del", "default", "table", BYPASS_TABLE]]

/-- The commands of `drop`, in order; their outcomes are ignored. -/
def dropCommands (guard : RouteGuard) : List Argv :=
  removeBypass guard.origIface guard.bypassCidrs guard.bypassAddrs false ++
  removeBypass guard.origIface6 guard.bypassCidrs6 guard.bypassAddrs6 true ++
  [["route", "del", "default", "dev", guard.tunName]] ++
  (if guard.serverIp6 ≠ "" then [["-6", "route", "del", "default", "dev", guard.tunName]]
    else []) ++
  (guard.lanRoutes.map fun lan => ["route", "del", lan.1, "via", lan.2]) ++
  (if guard.serverIp ≠ "" then [["route", "del", guard.serverIp, "via", guard.origGw]] else []) ++
  (if guard.serverIp6 ≠ "" then [["-6", "route", "del", guard.serverIp6, "via", guard.origGw6]]
    else [])

end RouteGuard

/-! ## The installation -/

/-- What the host reports: the default route and the addresses of its interface, for
    each family. The parsers return no duplicates. -/
structure Host where
  gateway : Option Word
  iface : Option Word
  cidrs : List Network
  addrs : List String
  gateway6 : Option Word
  iface6 : Option Word
  cidrs6 : List Network
  addrs6 : List String
  cidrs_nodup : cidrs.Nodup
  addrs_nodup : addrs.Nodup
  cidrs6_nodup : cidrs6.Nodup
  addrs6_nodup : addrs6.Nodup

section Install

variable (succeeds : Argv → Bool)

/-- `run("ip", ..)`. -/
def issue (argv : Argv) : Argv × Bool := (argv, succeeds argv)

/-- `*op = "del"` at the given position. -/
def asDelete (position : Nat) (step : Argv) : Argv := step.set position "del"

/-- The loop over the main plan: `none` is the error of a required step, after the
    additions so far have been deleted in reverse. -/
def installMain (serverIp origGw : String) :
    List Argv → List Argv → List (String × String) → CommandLog →
      Option (List (String × String)) × CommandLog
  | [], _, lanRoutes, log => (some lanRoutes, log)
  | step :: plan, added, lanRoutes, log =>
      let dst := step.getD 2 ""
      let isLanException := 4 ≤ step.length ∧ step.head? = some "route" ∧
        dst ≠ "default" ∧ dst ≠ serverIp
      let log := log ++ [issue succeeds step]
      if succeeds step then
        installMain serverIp origGw plan (added ++ [step])
          (if isLanException then lanRoutes ++ [(dst, origGw)] else lanRoutes) log
      else if isLanException then installMain serverIp origGw plan added lanRoutes log
      else (none, log ++ added.reverse.map fun done => issue succeeds (asDelete 1 done))

/-- What `install_bypass_plan` records of a step that succeeded. The word it looks at
    is the one after the verb. -/
def recordStep (step : Argv) (opIdx : Nat) (recorded : List String × List String) :
    List String × List String :=
  let kind := step.getD (opIdx + 1) ""
  if kind = "rule" then
    match (step.dropWhile (· ≠ "from"))[1]? with
    | some addr => (recorded.1, recorded.2 ++ [addr])
    | none => recorded
  else if kind = "route" then
    match step[opIdx + 2]? with
    | some dst => if dst ≠ "default" then (recorded.1 ++ [dst], recorded.2) else recorded
    | none => recorded
  else recorded

/-- The loop of `install_bypass_plan`: the recorded networks and addresses. -/
def installBypassPlan : List Argv → (List String × List String) → CommandLog →
    (List String × List String) × CommandLog
  | [], recorded, log => (recorded, log)
  | step :: plan, recorded, log =>
      let opIdx := if step.head? = some "-6" then 2 else 1
      -- the identical entry is deleted first
      let log := log ++ [issue succeeds (asDelete opIdx step), issue succeeds step]
      installBypassPlan plan (if succeeds step then recordStep step opIdx recorded
        else recorded) log

structure V6RouteAll where
  serverIp6 : String := ""
  origGw6 : String := ""
  origIface6 : String := ""
  bypassCidrs6 : List String := []
  bypassAddrs6 : List String := []
  deriving Repr, DecidableEq

variable (render : IpAddr → AddrText)

def installRouteAllV6 (host : Host) (server : SocketAddr) (tunName : String) (log : CommandLog) :
    Option V6RouteAll × CommandLog :=
  match server.ip, host.gateway6, host.iface6 with
  | .v6 bits, some gw6, some iface6 =>
      let serverIp6 := (render (.v6 bits)).1
      let hostRoute := ["-6", "route", "add", serverIp6, "via", gw6.1]
      let tunDefault := ["-6", "route", "add", "default", "dev", tunName, "metric", "1"]
      let log := log ++ [issue succeeds hostRoute]
      if !succeeds hostRoute then (none, log)
      else
        let log := log ++ [issue succeeds tunDefault]
        if !succeeds tunDefault then
          (none, log ++ [issue succeeds ["-6", "route", "del", serverIp6, "via", gw6.1]])
        else
          let plan := bypassPlan gw6.1 iface6.1 (host.cidrs6.map (·.1)) host.addrs6 true
          let (recorded, log) := installBypassPlan succeeds plan ([], []) log
          (some {
            serverIp6 := serverIp6
            origGw6 := gw6.1
            origIface6 := iface6.1
            bypassCidrs6 := recorded.1
            bypassAddrs6 := recorded.2 }, log)
  | _, _, _ => (none, log)

/-- `none` is an error; the commands issued are in the log either way. -/
def installRouteAll (host : Host) (server : SocketAddr) (tunName : String) :
    Option RouteGuard × CommandLog :=
  match host.gateway, host.iface with
  | some origGw, some origIface =>
      let serverIp := (render server.ip).1
      let lanCidrs := host.cidrs.map (·.1)
      let plan := routeAllPlan serverIp origGw.1 lanCidrs tunName
      match installMain succeeds serverIp origGw.1 plan [] [] [] with
      | (none, log) => (none, log)
      | (some lanRoutes, log) =>
          let bypass := bypassPlan origGw.1 origIface.1 lanCidrs host.addrs false
          let (recorded, log) := installBypassPlan succeeds bypass ([], []) log
          let (v6, log) := installRouteAllV6 succeeds render host server tunName log
          let v6 := v6.getD {}
          (some {
            serverIp := serverIp
            origGw := origGw.1
            tunName := tunName
            lanRoutes := lanRoutes
            serverIp6 := v6.serverIp6
            origGw6 := v6.origGw6
            origIface := origIface.1
            bypassCidrs := recorded.1
            bypassAddrs := recorded.2
            origIface6 := v6.origIface6
            bypassCidrs6 := v6.bypassCidrs6
            bypassAddrs6 := v6.bypassAddrs6 }, log)
  | _, _ => (none, [])

/-- Everything that is issued: by the installation, and by dropping the guard it
    returns. -/
def lifetimeLog (host : Host) (server : SocketAddr) (tunName : String) : CommandLog :=
  match installRouteAll succeeds render host server tunName with
  | (some guard, log) => log ++ guard.dropCommands.map (issue succeeds)
  | (none, log) => log

end Install

end Rustnies
