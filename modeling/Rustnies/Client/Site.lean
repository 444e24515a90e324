import Rustnies.Client.Session
import Rustnies.Server.DeviceOrder

/-! # A server and one of its clients

The server with all its sessions, and the tunnel of one client, over any network. As long
as the ciphers of that one session are not forged, what the client's TUN device is given
is what the server read from its own and dealt to this session, and what the server's
device is given for the session is what the client read, whatever other clients,
operators and strangers do in between.
-/

namespace Rustnies

variable {σ τ : Type}

/-- A server, the client of one of its tasks, and the packets that the task has opened. -/
structure Site (σ τ : Type) where
  server : Server σ
  client : End τ
  heard : List (PacketHeader × Bytes) := []

inductive SiteEvent where
  | server (e : ServerEvent)
  | client (turn : Env × Event)

/-- The turn that the event gives to the tunnel of the task. -/
def Server.turnOf (s : Server σ) (i : Nat) : ServerEvent → Option (Env × Event)
  | .task j env branch =>
      if j = i then s.tasks[i]?.bind fun t => (t.poll branch).map fun polled =>
        (env, polled.1) else none
  | _ => none

namespace Site

variable (ctx : ServerCtx σ) (cfg : Config τ) (i : Nat)

/-- What the task has opened after the event; a turn that panics opens nothing more. -/
def hearing (site : Site σ τ) (e : ServerEvent) : List (PacketHeader × Bytes) :=
  match site.server.tasks[i]?, site.server.turnOf i e with
  | some t, some turn =>
      (((⟨t.tunnel, site.heard⟩ : End σ).step t.cfg turn).map End.heard).getD site.heard
  | _, _ => site.heard

def step (site : Site σ τ) : SiteEvent → Option (Site σ τ)
  | .server e =>
      (site.server.step ctx e).map fun s => { site with server := s, heard := site.hearing i e }
  | .client turn => (site.client.step cfg turn).map fun c => { site with client := c }

/-- The ciphers of the session open nothing but what the other end sealed and sent. -/
def Unforged (site : Site σ τ) : SiteEvent → Prop
  | .server e => ∀ t turn,
      site.server.tasks[i]? = some t → site.server.turnOf i e = some turn →
      (⟨t.tunnel, site.heard⟩ : End σ).Hears t.cfg site.client.tunnel turn
  | .client turn => ∀ t, site.server.tasks[i]? = some t → site.client.Hears cfg t.tunnel turn

/-- The packets that the client reads from its TUN device. -/
def clientRead : SiteEvent → List Bytes
  | .server _ => []
  | .client turn => (Tunnel.tunRead turn.2).toList

def clientReads (events : List SiteEvent) : List Bytes := events.flatMap clientRead

/-- What happens at the server. -/
def serverEvents (events : List SiteEvent) : List ServerEvent :=
  events.filterMap fun
    | .server e => some e
    | .client _ => none

end Site

/-! ## A task between its turns -/

/-- What the task's loop has taken from the TUN channel. -/
def Task.Takes (t : Task σ) (reads : List Bytes) : Prop := reads ++ t.tunRx = t.routed

/-- Between its turns a task keeps its tunnel, and loses nothing of the channel. -/
theorem TaskMoves.takes {ctx : ServerCtx σ} {t t' : Task σ} {reads : List Bytes}
    (moves : TaskMoves ctx .idle t t') (takes : t.Takes reads) : t'.Takes reads := by
  induction moves with
  | refl => exact takes
  | tail _ move ih =>
      cases move with
      | turn allowed => exact allowed.elim
      | routed _ packet =>
          unfold Task.Takes at ih ⊢
          rw [← List.append_assoc, ih]
      | _ => exact ih

namespace Site

variable {ctx : ServerCtx σ} {cfg : Config τ} {i : Nat} {site site' : Site σ τ}
  {start start' : UInt32}

/-- The two tunnels as the ends of one session: what each opened, the other sent, and what
    each sent, it read. -/
structure Sited (start start' : UInt32) (i : Nat) (client : List Bytes) (site : Site σ τ)
    (t : Task σ) (reads : List Bytes) : Prop where
  isTask : site.server.tasks[i]? = some t
  takes : t.Takes reads
  honest : Duplex.Honest start start' ⟨site.client, ⟨t.tunnel, site.heard⟩⟩
  authentic : Duplex.Authentic client reads ⟨site.client, ⟨t.tunnel, site.heard⟩⟩

variable {client reads : List Bytes} {t : Task σ}

theorem Sited.client_step {turn : Env × Event} (sited : Sited start start' i client site t reads)
    (unforged : site.Unforged cfg i (.client turn))
    (stepped : site.step ctx cfg i (.client turn) = some site') :
    Sited start start' i (client ++ clientRead (.client turn)) site' t reads := by
  obtain ⟨c, turned, rfl⟩ := Option.map_eq_some_iff.mp stepped
  have moved : Duplex.step cfg t.cfg ⟨site.client, ⟨t.tunnel, site.heard⟩⟩ (.left turn) =
      some ⟨c, ⟨t.tunnel, site.heard⟩⟩ := by
    simp only [Duplex.step, turned, Option.map_some]
  have fair : Duplex.Unforged cfg t.cfg ⟨site.client, ⟨t.tunnel, site.heard⟩⟩
    (.left turn) := unforged t sited.isTask
  have authentic := sited.authentic.step moved
  have lefts : Duplex.leftReads [.left turn] = clientRead (.client turn) := by
    simp only [Duplex.leftReads, clientRead, List.filterMap_cons, List.filterMap_nil]
    cases Tunnel.tunRead turn.2 <;> rfl
  rw [lefts, show Duplex.rightReads [.left turn] = [] from rfl, List.append_nil] at authentic
  exact ⟨sited.isTask, sited.takes, sited.honest.step fair moved, authentic⟩

theorem Sited.turn {env : Env} {branch : Branch} (sited : Sited start start' i client site t reads)
    (unforged : site.Unforged cfg i (.server (.task i env branch)))
    (stepped : site.step ctx cfg i (.server (.task i env branch)) = some site') :
    ∃ t' reads', Sited start start' i client site' t' reads' := by
  obtain ⟨s, moved, rfl⟩ := Option.map_eq_some_iff.mp stepped
  obtain ⟨t₀, t', isTask₀, turned, isTask'⟩ := Server.stepTask_own moved
  cases isTask₀.symm.trans sited.isTask
  obtain ⟨-, event, mid, polled, outcome⟩ := Task.turn_cases turned
  obtain ⟨tun, -⟩ := Task.poll_takes polled
  have same := (Task.poll_same polled).1
  have isTurn : site.server.turnOf i (.task i env branch) = some (env, event) := by
    simp only [Server.turnOf, if_true, sited.isTask, Option.bind_some, polled, Option.map_some]
  have takes : mid.Takes (reads ++ (Tunnel.tunRead event).toList) := by
    rw [Task.Takes, List.append_assoc, ← tun, same.routed]
    exact sited.takes
  rcases outcome with ⟨tunnel, ran, rfl⟩ | ⟨panics, rfl⟩
  · have ended : (⟨t.tunnel, site.heard⟩ : End σ).step t.cfg (env, event) =
        some ⟨tunnel, site.heard ++ Tunnel.heardOf (t.tunnel.notes t.cfg event)⟩ := by
      simp only [End.step, ran, Option.map_some]
    have hears : site.hearing i (.task i env branch) = site.heard ++ Tunnel.heardOf
      (t.tunnel.notes t.cfg event) := by
      simp only [hearing, sited.isTask, isTurn, ended, Option.map_some, Option.getD_some]
    have moved : Duplex.step cfg t.cfg ⟨site.client, ⟨t.tunnel, site.heard⟩⟩
      (.right (env, event)) =
      some ⟨site.client,
      ⟨tunnel, site.heard ++ Tunnel.heardOf (t.tunnel.notes t.cfg event)⟩⟩ := by
      simp only [Duplex.step, ended, Option.map_some]
    have authentic := sited.authentic.step moved
    have rights : Duplex.rightReads [.right (env, event)] = (Tunnel.tunRead event).toList := by
      simp only [Duplex.rightReads, List.filterMap_cons, List.filterMap_nil]
      cases Tunnel.tunRead event <;> rfl
    rw [rights, show Duplex.leftReads [.right (env, event)] = []
      from rfl, List.append_nil, ← hears] at authentic
    have fair : Duplex.Unforged cfg t.cfg ⟨site.client, ⟨t.tunnel, site.heard⟩⟩
      (.right (env, event)) :=
      unforged t _ sited.isTask isTurn
    have honest := sited.honest.step fair moved
    rw [← hears] at honest
    exact ⟨_, _, isTask', takes, honest, authentic⟩
  · have hears : site.hearing i (.task i env branch) = site.heard := by
      have nothing : (⟨t.tunnel, site.heard⟩ : End σ).step t.cfg (env, event) = none := by
        simp only [End.step, panics, Option.map_none]
      simp only [hearing, sited.isTask, isTurn, nothing, Option.map_none, Option.getD_none]
    have tunnel : mid.tunnel = t.tunnel := (Task.poll_same polled).2.1
    have more := sited.authentic
    refine ⟨_, reads ++ (Tunnel.tunRead event).toList, isTask', takes, ?_, ?_⟩
    · simp only [hears, tunnel]
      exact sited.honest
    · simp only [hears, tunnel]
      exact ⟨more.leftGrounded, more.rightGrounded, more.leftOrdered,
        more.rightOrdered.trans (List.sublist_append_left _ _)⟩

theorem Sited.server_step {e : ServerEvent} (sited : Sited start start' i client site t reads)
    (unforged : site.Unforged cfg i (.server e))
    (stepped : site.step ctx cfg i (.server e) = some site') :
    ∃ t' reads', Sited start start' i client site' t' reads' := by
  have idle : ∀ {s t'}, site.server.turnOf i e = none → site.server.step ctx e =
    some s → s.tasks[i]? = some t' → t'.tunnel = t.tunnel → t'.Takes reads → site' =
    { site with server := s, heard := site.hearing i e } → ∃ t' reads',
    Sited start start' i client site' t' reads' := by
    rintro s t' quiet - isTask' tunnel takes rfl
    have hears : site.hearing i e = site.heard := by
      simp only [hearing, sited.isTask, quiet]
    refine ⟨t', reads, isTask', takes, ?_, ?_⟩
    · simp only [hears, tunnel]
      exact sited.honest
    · simp only [hears, tunnel]
      exact sited.authentic
  have another : (∀ j env branch, e ≠ .task j env branch) → ∃ t' reads',
    Sited start start' i client site' t' reads' := by
    intro other
    obtain ⟨s, moved, same⟩ := Option.map_eq_some_iff.mp stepped
    obtain ⟨t', isTask', moves⟩ := (Server.step_idle moved other).tasks sited.isTask
    have quiet : site.server.turnOf i e = none := by
      cases e with
      | task j env branch => exact absurd rfl (other j env branch)
      | _ => rfl
    exact idle quiet moved isTask' (TaskMoves.tunnel moves id).1 (moves.takes sited.takes) same.symm
  cases e with
  | task j env branch =>
      by_cases own : j = i
      · subst own
        exact sited.turn unforged stepped
      · obtain ⟨s, moved, same⟩ := Option.map_eq_some_iff.mp stepped
        have isTask' := (Server.stepTask_other moved own).trans sited.isTask
        exact idle (if_neg own) moved isTask' rfl sited.takes same.symm
  | dispatcher env branch => exact another fun _ _ _ same => by cases same
  | taskEnds j => exact another fun _ _ _ same => by cases same
  | bytes j chunk => exact another fun _ _ _ same => by cases same
  | eof j => exact another fun _ _ _ same => by cases same
  | auth change => exact another fun _ _ _ same => by cases same

theorem run_sited {events : List SiteEvent} (sited : Sited start start' i client site t reads)
    (unforged : Runs.Along (step ctx cfg i) (Unforged cfg i) site events)
    (ran : Runs.run (step ctx cfg i) site events = some site') :
    ∃ t' reads', Sited start start' i (client ++ clientReads events) site' t' reads' := by
  induction events generalizing site client t reads with
  | nil =>
      cases ran
      rw [clientReads, List.flatMap_nil, List.append_nil]
      exact ⟨t, reads, sited⟩
  | cons e events ih =>
      obtain ⟨mid, stepped, rest⟩ := Runs.run_cons_eq_some.mp ran
      obtain ⟨now, later⟩ := Runs.along_cons.mp unforged
      rw [clientReads, List.flatMap_cons, ← List.append_assoc]
      cases e with
      | client turn => exact ih (sited.client_step now stepped) (later mid stepped) rest
      | server e =>
          obtain ⟨t', reads', after⟩ := sited.server_step now stepped
          rw [show clientRead (.server e) = [] from rfl, List.append_nil]
          exact ih after (later mid stepped) rest

theorem run_server {events : List SiteEvent}
    (ran : Runs.run (step ctx cfg i) site events = some site') :
    Runs.run (Server.step ctx) site.server (serverEvents events) = some site'.server := by
  induction events generalizing site with
  | nil =>
      cases ran
      rfl
  | cons e events ih =>
      obtain ⟨mid, stepped, rest⟩ := Runs.run_cons_eq_some.mp ran
      cases e with
      | client turn =>
          obtain ⟨c, -, rfl⟩ := Option.map_eq_some_iff.mp stepped
          have after := ih rest
          exact after
      | server e =>
          obtain ⟨s, moved, rfl⟩ := Option.map_eq_some_iff.mp stepped
          exact Runs.run_cons_eq_some.mpr ⟨s, moved, ih rest⟩

/-- Let a session have begun on a server in any state that it reaches, and let the ciphers of
    that session alone not be forged. Then, whatever the network, the other clients and
    the operators do: a packet that comes out of the client's TUN device as it came is one
    that the server read from its own device and gave to this session and to no other, and
    a packet that the server writes to its device for the session is one that the client
    read from its own, unless recovery restored it. -/
theorem sessions_kept_apart {now : Instant} {peerAuth : PeerAuth} {before : List ServerEvent}
    {s : Server σ}
    (reached : Runs.run (Server.step ctx) (Server.init now peerAuth) before = some s) {t : Task σ}
    (isTask : s.tasks[i]? = some t) {tunnel : Tunnel τ} (paired : Paired cfg tunnel t)
    {events : List SiteEvent}
    (unforged : Runs.Along (step ctx cfg i) (Unforged cfg i) ⟨s, ⟨tunnel, []⟩, []⟩ events)
    (ran : Runs.run (step ctx cfg i) ⟨s, ⟨tunnel, []⟩, []⟩ events = some site) :
    (∃ log : List (Nat × Bytes),
      (log.map Prod.snd).Sublist (Server.deviceReads (before ++ serverEvents events)) ∧
      (∀ (j : Nat) (u : Task σ), site.server.tasks[j]? = some u → u.routed =
      Deals.dealt log j) ∧ ∀ w ∈ site.client.tunnel.tunWrites, ∀ hdr,
      w.origin = .data hdr → w.bytes ∈ Deals.dealt log i) ∧
    ∀ packet ∈ Server.postedBy site.server.tunOut i, packet ∈ clientReads events ∨
      ∃ u, site.server.tasks[i]? = some u ∧ ∃ group index,
      ⟨.recovered group index, packet⟩ ∈ u.tunnel.tunWrites := by
  have served : Runs.run (Server.step ctx) (Server.init now peerAuth)
    (before ++ serverEvents events) = some site.server := by
    rw [Runs.run_append, reached]
    exact run_server ran
  have sited : Sited _ _ i [] ⟨s, ⟨tunnel, []⟩, []⟩ t [] :=
    ⟨isTask, paired.untaken.symm, Duplex.New.honest paired.client.new paired.server.new,
      Duplex.New.authentic paired.client.new paired.server.new
        ⟨paired.client.unparked, paired.server.unparked⟩
        ⟨paired.client.unwritten, paired.server.unwritten⟩⟩
  obtain ⟨u, reads, after⟩ := run_sited sited unforged ran
  rw [List.nil_append] at after
  obtain ⟨fromClient, fromServer⟩ := after.authentic.written after.honest
  obtain ⟨log, routed⟩ :=
    Server.run_routed (Server.init_routed now peerAuth) (Server.init_owned now peerAuth) served
  refine ⟨⟨log, (List.sublist_append_left _ _).trans routed.ordered, routed.tasks,
    fun w written hdr origin => ?_⟩, ?_⟩
  · rw [← routed.tasks i u after.isTask, ← after.takes]
    exact List.mem_append_left _ (fromServer w written hdr origin)
  · intro packet posted
    have reachable : Server.Reachable ctx site.server := ⟨now, peerAuth, _, served⟩
    have written := (reachable.posted.front i u after.isTask).subset posted
    obtain ⟨w, member, rfl⟩ := List.mem_map.mp written
    cases origin : w.origin with
    | data hdr => exact .inl (fromClient w member hdr origin)
    | recovered group index =>
        refine .inr ⟨u, after.isTask, group, index, ?_⟩
        rw [← origin]
        exact member

/-! ## A packet each way, beside another client -/

section Sample

open ClientCtx

def host : SocketAddr := ⟨.v4 9, 1⟩

/-- The client's message 1 arrives. -/
def join : ServerEvent := .dispatcher (.small 1 5) (.datagram (sample.envelope sampleMessage1) host)

/-- The server before it treats the message. -/
def asked : Server Unit := { Server.init 0 .openMode with
  probeLimiter := ((ProbeLimiter.new 0).allow 1 host).2 }

/-- The server that has answered it. -/
def joined : Server Unit :=
  (asked.handleHandshake sampleServer (.small 1 5) (sample.envelope sampleMessage1) host .shared).2

theorem joined_reached :
    Runs.run (Server.step sampleServer) (Server.init 0 .openMode) [join] = some joined := rfl

/-- The server's view of a session. -/
def answeredTo (env : ServerEnv) (datagram : Bytes) (source : SocketAddr) :
    SessionEstablished UInt8 :=
  ((asked.respond sampleServer env datagram source).map Prod.fst).getD
    (Server.sessionWithHash [] source)

def answered : SessionEstablished UInt8 :=
  answeredTo (.small 1 5) (sample.envelope sampleMessage1) host

/-- The session as the other end of it has it. -/
def mirrored (answer : SessionEstablished UInt8) : SessionEstablished UInt8 := { answer with
  sendKey := answer.recvKey
  recvKey := answer.sendKey
  sendDir := answer.recvDir
  recvDir := answer.sendDir }

theorem mirrored_agree (answer : SessionEstablished UInt8) : (mirrored answer).Agree answer :=
  ⟨rfl, rfl, rfl, rfl, rfl, rfl, rfl⟩

/-- The datagram of the last packet that a tunnel sent. -/
def lastWire {σ : Type} (t : Option (Tunnel σ)) : Bytes :=
  ((t.bind fun t => t.sent.getLast?).map Sent.wire).getD []

/-- Another client of the same server. -/
def neighbour : ClientCtx Unit :=
  { sample with call := { sample.call with clientKp := .generate .summing [6] } }

def neighbourHost : SocketAddr := ⟨.v4 8, 1⟩

def neighbourMessage1 : Bytes :=
  match neighbour.call.message1 ⟨[7], true, .timedOut⟩ with
  | .ok (m₁, _) => neighbour.envelope m₁
  | .error _ => []

/-- The first packet of its session, from 10.0.0.3. -/
def neighbourPacket : Bytes :=
  match neighbour.newTunnel 2
    (mirrored (answeredTo (.small 2 8) neighbourMessage1 neighbourHost)) with
  | .ok (cfg, tunnel) => lastWire (Tunnel.step cfg tunnel (.small 2, .tun (smallPacket 3 1)))
  | .error _ => []

variable (cfg : Config Unit) (tunnel : Tunnel Unit)

def begun : Site Unit Unit := ⟨joined, ⟨tunnel, []⟩, []⟩

/-- The other client joins. Both send a packet, the server writes them, and reads one for
    each of the two addresses. -/
def toServer : List SiteEvent :=
  let sent := lastWire (Tunnel.step cfg tunnel (.small 2, .tun (smallPacket 2 1)))
  [.client (.small 2, .tun (smallPacket 2 1)),
    .server (.dispatcher (.small 2 8) (.datagram neighbourMessage1 neighbourHost)),
    .server (.dispatcher (.small 3 1) (.datagram sent host)), .server (.task 0 (.small 3) .udp),
    .server (.dispatcher (.small 3 1) (.datagram neighbourPacket neighbourHost)),
    .server (.task 1 (.small 3) .udp), .server Server.takesPost, .server Server.takesPost,
    .server (.dispatcher (.small 5 1) (.tun (smallPacket 1 2))),
    .server (.dispatcher (.small 5 1) (.tun (smallPacket 1 3))),
    .server (.task 0 (.small 6) .tun), .server (.task 1 (.small 6) .tun)]

/-- The packet for 10.0.0.2 arrives at the client. -/
def bothWays : List SiteEvent :=
  let sent := lastWire
    ((Runs.run (step sampleServer cfg 0) (begun tunnel) (toServer cfg tunnel)).bind fun site =>
    site.server.tasks[0]?.map Task.tunnel)
  toServer cfg tunnel ++ [.client (.small 7, .datagram sent sample.call.server)]

/-- `Unforged`, where it can be evaluated. -/
def checkUnforged (site : Site Unit Unit) : SiteEvent → Bool
  | .server e => site.server.tasks[0]?.all fun t => (site.server.turnOf 0 e).all fun turn =>
      Duplex.knows t.cfg t.tunnel site.client.tunnel.sent turn
  | .client turn =>
      site.server.tasks[0]?.all fun t => Duplex.knows cfg site.client.tunnel t.tunnel.sent turn

theorem unforged_of_check (site : Site Unit Unit) (e : SiteEvent)
    (checked : checkUnforged cfg site e = true) :
    site.Unforged cfg 0 e := by
  cases e with
  | server e =>
      intro t turn isTask isTurn
      simpa [checkUnforged, isTask, isTurn, Duplex.knows, End.Hears] using checked
  | client turn =>
      intro t isTask
      simpa [checkUnforged, isTask, Duplex.knows, End.Hears] using checked

/-- What the two devices were given: the client's one packet, the server's one for each
    session, and the other client's task has sent its own. -/
def Served (site : Site Unit Unit) : Prop :=
  site.client.tunnel.tunWrites.map TunWrite.bytes = [smallPacket 1 2] ∧
    Server.postedBy site.server.tunOut 0 = [smallPacket 2 1] ∧
    Server.postedBy site.server.tunOut 1 = [smallPacket 3 1] ∧
    site.server.tasks[1]?.map (fun u => u.tunnel.dataSent) = some [smallPacket 1 3]

instance (site : Site Unit Unit) : Decidable (Served site) :=
  inferInstanceAs (Decidable (_ ∧ _ ∧ _ ∧ _))

/-- All the packets arrive, and no cipher of the client's session was forged. -/
def arrives : Bool :=
  Runs.checkAlong (step sampleServer cfg 0) (checkUnforged cfg) (begun tunnel)
    (bothWays cfg tunnel) &&
    (Runs.run (step sampleServer cfg 0) (begun tunnel) (bothWays cfg tunnel)).any fun site =>
    decide (Served site)

theorem bothWays_kept_apart : ∃ cfg tunnel site, sample.newTunnel 2 (mirrored answered) =
      .ok (cfg, tunnel) ∧ Runs.run (step sampleServer cfg 0) (begun tunnel)
      (bothWays cfg tunnel) = some site ∧ Served site ∧ (∃ log : List (Nat × Bytes),
      (log.map Prod.snd).Sublist
      (Server.deviceReads ([join] ++ serverEvents (bothWays cfg tunnel))) ∧
      (∀ (j : Nat) (u : Task Unit), site.server.tasks[j]? = some u → u.routed =
        Deals.dealt log j) ∧ ∀ w ∈ site.client.tunnel.tunWrites, ∀ hdr,
      w.origin = .data hdr → w.bytes ∈ Deals.dealt log 0) ∧
    ∀ packet ∈ Server.postedBy site.server.tunOut 0, packet ∈ clientReads
    (bothWays cfg tunnel) ∨ ∃ u, site.server.tasks[0]? = some u ∧ ∃ group index,
    ⟨.recovered group index, packet⟩ ∈ u.tunnel.tunWrites := by
  have owned : asked.Owned := fun _ _ found => nomatch found
  have accepted :
    (asked.handleHandshake sampleServer (.small 1 5) (sample.envelope sampleMessage1) host
    .shared).1 =
      true := by decide +kernel
  have single : joined.tasks.length = 1 := by decide +kernel
  obtain ⟨answer, wire, resolved, i, responded, -, resolve, -, isTask⟩ :=
    Server.handleHandshake_accepted owned accepted
  obtain rfl : i = 0 := by
    have inside := (List.getElem?_eq_some_iff.mp isTask).1
    change i < joined.tasks.length at inside
    omega
  obtain rfl : answered = answer :=
    by rw [answered, answeredTo, responded, Option.map_some, Option.getD_some]
  obtain ⟨cfg, tunnel, opened, paired⟩ :=
    newTunnel_paired sample_setUp NoisePrimitives.summing_lawful.opens (mirrored_agree answered)
    resolve (.small 1 5) .shared 2
  have evaluated : (match sample.newTunnel 2 (mirrored answered) with
      | .ok (cfg, tunnel) => arrives cfg tunnel
      | .error _ => false) = true := by decide +kernel
  rw [opened] at evaluated
  obtain ⟨fair, evaluated⟩ := (Bool.and_eq_true _ _).mp evaluated
  obtain ⟨site, ran, checked⟩ := (Option.any_eq_true _ _).mp evaluated
  exact ⟨cfg, tunnel, site, opened, ran, of_decide_eq_true checked,
    sessions_kept_apart joined_reached isTask paired
    (Runs.along_of_check (unforged_of_check cfg) fair) ran⟩

end Sample

end Site

end Rustnies
