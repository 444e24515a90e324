import Rustnies.Lib.Deals
import Rustnies.Server.ReturnPath
import Rustnies.Tunnel.Integrity

/-! # The channels between the dispatcher and the tunnels

A task is a run of its tunnel on what the dispatcher put into its channels. Each packet
that the server reads from the TUN device goes to one session at most, and what the
sessions post comes out of the device in the order in which each of them wrote it.
-/

namespace Rustnies

variable {σ : Type}

/-! ## A task is a run of its tunnel -/

namespace Tunnel

def datagramRead : Event → Option (Bytes × SocketAddr)
  | .datagram bytes source => some (bytes, source)
  | _ => none

/-- The datagrams that the turns took. -/
def datagramReads (turns : List (Env × Event)) : List (Bytes × SocketAddr) :=
  turns.filterMap fun turn => datagramRead turn.2

theorem tunReads_concat (turns : List (Env × Event)) (turn : Env × Event) :
    tunReads (turns ++ [turn]) = tunReads turns ++ (tunRead turn.2).toList := by
  simp only [tunReads, List.filterMap_append, List.filterMap_cons, List.filterMap_nil]
  cases tunRead turn.2 <;> rfl

theorem datagramReads_concat (turns : List (Env × Event)) (turn : Env × Event) :
    datagramReads (turns ++ [turn]) = datagramReads turns ++ (datagramRead turn.2).toList := by
  simp only [datagramReads, List.filterMap_append, List.filterMap_cons, List.filterMap_nil]
  cases datagramRead turn.2 <;> rfl

theorem step_writes {cfg : Config σ} {t t' : Tunnel σ} {turn : Env × Event}
    (stepped : t.step cfg turn = some t') :
    t.tunWrites <+: t'.tunWrites := by
  refine (step_moves stepped).preserves (fun mid => t.tunWrites <+: mid.tunWrites)
    (fun s notes s' move front => ?_) (List.prefix_refl _)
  cases move with
  | delivers => exact front.trans (List.prefix_append _ _)
  | recovers => exact front.trans (List.prefix_append _ _)
  | _ => exact front

end Tunnel

namespace Task

/-- The task has taken the turns from a fresh start, and the last one, if it is given, was
    a panic: nothing that was put into its channels was lost, repeated or reordered. -/
structure Took (fresh t : Task σ) (turns : List (Env × Event)) (last : Option (Env × Event)) :
    Prop where
  cfg : t.cfg = fresh.cfg
  ran : Tunnel.run fresh.cfg fresh.tunnel turns = some t.tunnel
  panicked : t.panicked = last.isSome
  aborts : ∀ turn ∈ last, t.tunnel.step t.cfg turn = none
  tun : Tunnel.tunReads (turns ++ last.toList) ++ t.tunRx = t.routed
  udp : Tunnel.datagramReads (turns ++ last.toList) ++ t.udpRx = t.handed

theorem poll_takes {t mid : Task σ} {branch : Branch} {event : Event}
    (polled : t.poll branch = some (event, mid)) :
    t.tunRx = (Tunnel.tunRead event).toList ++ mid.tunRx ∧
      t.udpRx = (Tunnel.datagramRead event).toList ++ mid.udpRx := by
  cases branch with
  | tun =>
      simp only [poll] at polled
      cases queue : t.tunRx with
      | nil =>
          simp only [queue, Option.ite_none_left_eq_some, Option.some.injEq,
            Prod.mk.injEq] at polled
          obtain ⟨-, rfl, rfl⟩ := polled
          exact ⟨queue.symm, rfl⟩
      | cons packet rest =>
          simp only [queue, Option.some.injEq, Prod.mk.injEq] at polled
          obtain ⟨rfl, rfl⟩ := polled
          exact ⟨rfl, rfl⟩
  | udp =>
      simp only [poll] at polled
      cases queue : t.udpRx with
      | nil =>
          simp only [queue, Option.ite_none_left_eq_some, Option.some.injEq,
            Prod.mk.injEq] at polled
          obtain ⟨-, rfl, rfl⟩ := polled
          exact ⟨rfl, queue.symm⟩
      | cons message rest =>
          simp only [queue, Option.some.injEq, Prod.mk.injEq] at polled
          obtain ⟨rfl, rfl⟩ := polled
          exact ⟨rfl, rfl⟩
  | evict =>
      simp only [poll, Option.ite_none_right_eq_some, Option.some.injEq, Prod.mk.injEq] at polled
      obtain ⟨-, rfl, rfl⟩ := polled
      exact ⟨rfl, rfl⟩
  | pacerRetry =>
      simp only [poll, Option.ite_none_right_eq_some, Option.some.injEq, Prod.mk.injEq] at polled
      obtain ⟨-, rfl, rfl⟩ := polled
      exact ⟨rfl, rfl⟩
  | _ =>
      simp only [poll, Option.some.injEq, Prod.mk.injEq] at polled
      obtain ⟨rfl, rfl⟩ := polled
      exact ⟨rfl, rfl⟩

theorem Took.turn {fresh t t' : Task σ} {turns : List (Env × Event)}
    {last : Option (Env × Event)} {env : Env} {branch : Branch} (took : fresh.Took t turns last)
    (turned : t.turn env branch = some t') :
    ∃ turns last, fresh.Took t' turns last := by
  obtain ⟨running, event, mid, polled, outcome⟩ := turn_cases turned
  obtain ⟨tun, udp⟩ := poll_takes polled
  obtain ⟨same, tunnel, -, calm⟩ := poll_same polled
  -- a task that takes a turn has not panicked before
  obtain rfl : last = none := by
    have sound := took.panicked
    simp only [Task.running, Bool.and_eq_true, Bool.not_eq_true'] at running
    rw [running.2] at sound
    cases last with
    | none => rfl
    | some turn => cases sound
  have cfg : mid.cfg = fresh.cfg := same.cfg.trans took.cfg
  have reads : Tunnel.tunReads (turns ++ [(env, event)]) ++ mid.tunRx = mid.routed := by
    rw [Tunnel.tunReads_concat, List.append_assoc, ← tun, same.routed, ← took.tun,
      Option.toList_none, List.append_nil]
  have datagrams : Tunnel.datagramReads (turns ++ [(env, event)]) ++ mid.udpRx = mid.handed := by
    rw [Tunnel.datagramReads_concat, List.append_assoc, ← udp, same.handed, ← took.udp,
      Option.toList_none, List.append_nil]
  rcases outcome with ⟨tunnel', stepped, rfl⟩ | ⟨stepped, rfl⟩
  · refine ⟨turns ++ [(env, event)], none, cfg, ?_, ?_, ?_, ?_, ?_⟩
    · rw [took.cfg] at stepped
      rw [Tunnel.run, Runs.run_append, show Runs.run _ _ turns = _ from took.ran, Option.bind_some,
        Runs.run_cons, stepped]
      rfl
    · exact calm.trans took.panicked
    · exact fun turn none => nomatch none
    · rw [Option.toList_none, List.append_nil]
      exact reads
    · rw [Option.toList_none, List.append_nil]
      exact datagrams
  · refine ⟨turns, some (env, event), cfg, took.ran.trans (congrArg some tunnel.symm), rfl, ?_,
      reads, datagrams⟩
    intro turn isLast
    cases isLast
    change mid.tunnel.step mid.cfg (env, event) = none
    rw [tunnel, same.cfg]
    exact stepped

end Task

theorem TaskMoves.took {ctx : ServerCtx σ} {scope : Scope} {fresh t : Task σ}
    (moves : TaskMoves ctx scope fresh t) (start : fresh.Took fresh [] none) :
    ∃ turns last, fresh.Took t turns last := by
  induction moves with
  | refl => exact ⟨[], none, start⟩
  | tail _ move ih =>
      obtain ⟨turns, last, took⟩ := ih
      cases move with
      | turn _ env branch turned => exact took.turn turned
      | handed _ t message =>
          refine ⟨turns, last, took.cfg, took.ran, took.panicked, took.aborts, took.tun, ?_⟩
          rw [← List.append_assoc, took.udp]
      | routed t packet =>
          refine ⟨turns, last, took.cfg, took.ran, took.panicked, took.aborts, ?_, took.udp⟩
          rw [← List.append_assoc, took.tun]
      | _ =>
          exact ⟨turns, last, took.cfg, took.ran, took.panicked, took.aborts,
            took.tun, took.udp⟩

namespace Server

variable {ctx : ServerCtx σ} {s s' : Server σ}

theorem newTask_took (ctx : ServerCtx σ) (env : ServerEnv) (carrier : SessionCarrier)
    (resolved : ResolvedProfile) (established : SessionEstablished UInt8) :
    (newTask ctx env carrier resolved established).Took
    (newTask ctx env carrier resolved established) [] none :=
  ⟨rfl, rfl, rfl, (fun _ none => nomatch none), rfl, rfl⟩

theorem newTask_starts (ctx : ServerCtx σ) (env : ServerEnv) (carrier : SessionCarrier)
    (resolved : ResolvedProfile) (established : SessionEstablished UInt8) :
    let tunnel := (newTask ctx env carrier resolved established).tunnel
    tunnel.sent = [] ∧ tunnel.pendingOut = none ∧ tunnel.tunWrites = [] := by
  obtain ⟨adaptive, params, configured⟩ := Tunnel.configureFec_eq
    (newTask ctx env carrier resolved established).cfg
    (Tunnel.fromHandshake established.peer (.new established.sessionId .responder) ctx.newCongestion
      env.now) ctx.fecConfig
  rw [show (newTask ctx env carrier resolved established).tunnel = _ from configured]
  exact ⟨rfl, rfl, rfl⟩

theorem task_took {now : Instant} {peerAuth : PeerAuth} {events : List ServerEvent}
    (ran : Runs.run (step ctx) (init now peerAuth) events = some s) {i : Nat} {t : Task σ}
    (isTask : s.tasks[i]? = some t) : ∃ env carrier resolved established turns last,
      (newTask ctx env carrier resolved established).Took t turns last := by
  obtain ⟨env, carrier, resolved, established, moves⟩ :=
    (run_evolves ctx _ ran).spawned (Nat.zero_le i) isTask
  exact ⟨env, carrier, resolved, established,
    moves.took (newTask_took ctx env carrier resolved established)⟩

/-- Every task of every reachable server is a run of the tunnel of a fresh session on what
    the dispatcher put into its channels, in order, nothing lost and nothing twice. -/
theorem tasks_run_tunnels (reachable : Reachable ctx s) {i : Nat} {t : Task σ}
    (isTask : s.tasks[i]? = some t) :
    ∃ env carrier resolved established turns last,
      (newTask ctx env carrier resolved established).Took t turns last := by
  obtain ⟨now, peerAuth, events, ran⟩ := reachable
  exact task_took ran isTask

/-- The task of one client has taken the datagram that it was handed. -/
theorem ownAddress_took : ∃ s t, Reachable (ServerCtx.small .udp 0) s ∧ s.tasks[0]? = some t ∧
    t.handed ≠ [] ∧ t.udpRx = [] ∧ ∃ env carrier resolved established turns last,
      (newTask (ServerCtx.small .udp 0) env carrier resolved established).Took t turns last := by
  have evaluated :
    (Runs.run (step (ServerCtx.small .udp 0)) (init 0 .openMode) ownAddress).any (fun s =>
      s.tasks[0]?.any fun t => decide (t.handed ≠ [] ∧ t.udpRx = [])) = true := by
    decide +kernel
  obtain ⟨s, ran, checked⟩ := (Option.any_eq_true _ _).mp evaluated
  obtain ⟨t, isTask, checked⟩ := (Option.any_eq_true _ _).mp checked
  obtain ⟨handed, taken⟩ := of_decide_eq_true checked
  have reachable : Reachable (ServerCtx.small .udp 0) s := ⟨0, .openMode, ownAddress, ran⟩
  exact ⟨s, t, reachable, isTask, handed, taken, tasks_run_tunnels reachable isTask⟩

/-! ## What a step does to the channels of the TUN device -/

/-- The packet that the dispatcher holds until a task has room for it. -/
def waiting (s : Server σ) : List Bytes :=
  match s.awaiting with
  | .backpressure _ packet => [packet]
  | _ => []

/-- What routes no packet, posts none and writes none. -/
structure Calm (s s' : Server σ) : Prop where
  tunOut : s'.tunOut = s.tunOut
  tunWriteRx : s'.tunWriteRx = s.tunWriteRx
  stopped : s'.stopped = s.stopped
  waiting : s'.waiting.Sublist s.waiting
  grows : s.tasks.length ≤ s'.tasks.length
  tasks : ∀ i t', s'.tasks[i]? = some t' →
    (∃ t, s.tasks[i]? = some t ∧ t'.routed = t.routed ∧
      t'.tunnel.tunWrites = t.tunnel.tunWrites) ∨
    (s.tasks.length ≤ i ∧ t'.routed = [] ∧ t'.tunnel.tunWrites = [])

namespace Calm

theorem of_same (tasks : s'.tasks = s.tasks) (tunOut : s'.tunOut = s.tunOut)
    (tunWriteRx : s'.tunWriteRx = s.tunWriteRx) (stopped : s'.stopped = s.stopped)
    (waiting : s'.waiting.Sublist s.waiting) : Calm s s' := by
  refine ⟨tunOut, tunWriteRx, stopped, waiting, Nat.le_of_eq (congrArg List.length tasks.symm),
    fun i t' isTask => ?_⟩
  rw [tasks] at isTask
  exact .inl ⟨t', isTask, rfl, rfl⟩

theorem refl (s : Server σ) : Calm s s := of_same rfl rfl rfl rfl (List.Sublist.refl _)

theorem trans {s'' : Server σ} (first : Calm s s') (second : Calm s' s'') : Calm s s'' where
  tunOut := second.tunOut.trans first.tunOut
  tunWriteRx := second.tunWriteRx.trans first.tunWriteRx
  stopped := second.stopped.trans first.stopped
  waiting := second.waiting.trans first.waiting
  grows := first.grows.trans second.grows
  tasks i t'' isTask := by
    rcases second.tasks i t'' isTask with ⟨t', isTask', routed', writes'⟩ | ⟨fresh, nothing⟩
    · rw [routed', writes']
      exact first.tasks i t' isTask'
    · exact .inr ⟨first.grows.trans fresh, nothing⟩

theorem updateTask (s : Server σ) (i : Nat) {f : Task σ → Task σ}
    (routed : ∀ t, (f t).routed = t.routed) (tunnel : ∀ t, (f t).tunnel = t.tunnel) :
    Calm s (s.updateTask i f) := by
  refine ⟨rfl, rfl, rfl, List.Sublist.refl _, Nat.le_of_eq (List.length_modify ..).symm,
    fun j t' isTask => .inl ?_⟩
  simp only [Server.updateTask, List.getElem?_modify, Option.map_eq_map,
    Option.map_eq_some_iff] at isTask
  obtain ⟨t, isTask, rfl⟩ := isTask
  refine ⟨t, isTask, ?_⟩
  split
  · exact ⟨routed t, congrArg Tunnel.tunWrites (tunnel t)⟩
  · exact ⟨rfl, rfl⟩

end Calm

theorem removeSession_calm (s : Server σ) (sid : SessionId) : Calm s (s.removeSession sid) := by
  unfold removeSession
  split
  · exact .refl s
  · rename_i h _
    have released : Calm s (s.releaseTask h.task) :=
      .updateTask s h.task (fun _ => rfl) fun _ => rfl
    exact released.trans (.of_same rfl rfl rfl rfl (List.Sublist.refl _))

theorem signalEvict_calm (s : Server σ) (i : Nat) : Calm s (s.signalEvict i) := by
  refine .updateTask s i (fun t => ?_) fun t => ?_
  · split <;> rfl
  · split <;> rfl

theorem signalAll_calm (s : Server σ) (victims : List (Sigma fun _ : SessionId => ClientHandle)) :
    Calm s (s.signalAll victims) := by
  induction victims generalizing s with
  | nil => exact .refl s
  | cons e victims ih => exact (signalEvict_calm s _).trans (ih _)

theorem forward_calm {now : Instant} {datagram : Bytes} {source : SocketAddr} {sid : SessionId}
    (forwarded : s.forward now datagram source sid = some s') : Calm s s' := by
  unfold forward at forwarded
  cases found : s.sessions.lookup sid with
  | none => simp [found] at forwarded
  | some h =>
      cases isTask : s.tasks[h.task]? with
      | none => simp [found, isTask] at forwarded
      | some t =>
          simp only [found, isTask, Option.ite_none_left_eq_some] at forwarded
          cases forwarded.2
          have noted : Calm s (s.setHandle sid { h with lastForwarded := now }) :=
            .of_same rfl rfl rfl rfl (List.Sublist.refl _)
          exact noted.trans (.updateTask _ h.task (fun _ => rfl) fun _ => rfl)

theorem evictOldestPeerSession_calm (s : Server σ) (order : IterOrder) (peerKey : Bytes)
    (max : UInt8) :
    Calm s (s.evictOldestPeerSession order peerKey max) := by
  cases victim : s.capVictim order peerKey max with
  | none =>
      rw [evictOldestPeerSession_none victim]
      exact .refl s
  | some sid =>
      obtain ⟨h, found, -⟩ := capVictim_spec victim
      rw [evictOldestPeerSession_victim victim found]
      exact ((signalEvict_calm s h.task).trans (removeSession_calm _ sid)).trans
        (.of_same rfl rfl rfl rfl (List.Sublist.refl _))

theorem spawnClient_calm (s : Server σ) (env : ServerEnv) (carrier : SessionCarrier)
    (resolved : ResolvedProfile) (established : SessionEstablished UInt8)
    (keystream : Option Bytes) :
    Calm s (s.spawnClient ctx env carrier resolved established keystream) := by
  have appended : Calm s { s with tasks :=
    s.tasks ++ [newTask ctx env carrier resolved established] } := by
    refine ⟨rfl, rfl, rfl, List.Sublist.refl _, by simp, fun i t' isTask => ?_⟩
    rcases Nat.lt_or_ge i s.tasks.length with inside | beyond
    · rw [List.getElem?_append_left inside] at isTask
      exact .inl ⟨t', isTask, rfl, rfl⟩
    · rw [List.getElem?_append_right beyond, List.getElem?_singleton,
        Option.ite_none_right_eq_some] at isTask
      cases isTask.2
      exact .inr ⟨beyond, rfl, (newTask_starts ctx env carrier resolved established).2.2⟩
  exact (appended.trans (removeSession_calm _ established.sessionId)).trans
    (.of_same rfl rfl rfl rfl (List.Sublist.refl _))

theorem acceptHandshake_calm (s : Server σ) (env : ServerEnv) (msg1 : Bytes)
    (carrier : SessionCarrier) (established : SessionEstablished UInt8) :
    Calm s (s.acceptHandshake ctx env msg1 carrier established).2 := by
  have evicted :=
    evictOldestPeerSession_calm s env.order established.peerStatic ctx.maxSessionsPerPeer
  unfold acceptHandshake
  cases ResolvedProfile.withHandshakeTransport established.selection
    ctx.profile.handshakeTransport with
  | error e => exact evicted
  | ok resolved =>
      have spawned : Calm _ (spawnClient ctx env _ carrier resolved established _) :=
        spawnClient_calm
          (s.evictOldestPeerSession env.order established.peerStatic ctx.maxSessionsPerPeer) env
          carrier resolved established
          (extractHeaderXorKeystream ctx established.handshakeHash resolved.codec.maxHeaderLen)
      exact (evicted.trans spawned).trans (.of_same rfl rfl rfl rfl (List.Sublist.refl _))

theorem handleHandshake_calm (s : Server σ) (env : ServerEnv) (msg1 : Bytes) (source : SocketAddr)
    (carrier : SessionCarrier) : Calm s (s.handleHandshake ctx env msg1 source carrier).2 := by
  have probed : Calm s { s with probes := s.probes ++ [msg1] } :=
    .of_same rfl rfl rfl rfl (List.Sublist.refl _)
  unfold handleHandshake
  cases s.respond ctx env msg1 source with
  | none => exact probed
  | some answer =>
      simp only
      split
      · exact probed.trans (acceptHandshake_calm _ env msg1 carrier answer.1)
      · exact probed

theorem dispatchDatagram_calm (s : Server σ) (env : ServerEnv) (datagram : Bytes)
    (source : SocketAddr) :
    Calm s (s.dispatchDatagram ctx env datagram source) := by
  have limited : Calm s { s with probeLimiter := (s.probeLimiter.allow env.now source).2 } :=
    .of_same rfl rfl rfl rfl (List.Sublist.refl _)
  have answers : Calm _ (handleHandshake ctx env _ datagram source .shared).2 :=
    handleHandshake_calm { s with probeLimiter := (s.probeLimiter.allow env.now source).2 } env
      datagram source .shared
  have handshake := limited.trans answers
  unfold dispatchDatagram
  simp only
  cases routed : (s.peekRoutedSession env.order ctx.profile.handshakeTransport datagram).bind
      (s.forward env.now datagram source) with
  | some s' =>
      obtain ⟨sid, -, forwarded⟩ := Option.bind_eq_some_iff.mp routed
      exact forward_calm forwarded
  | none =>
      simp only
      split
      · exact limited
      · cases answered : handleHandshake ctx env
            { s with probeLimiter := (s.probeLimiter.allow env.now source).2 } datagram source
              .shared with
        | mk accepted after =>
            rw [answered] at handshake
            cases accepted with
            | true => exact handshake
            | false =>
                simp only
                cases fallback : (after.addrFallback source).bind
                  (after.forward env.now datagram source) with
                | none => exact handshake
                | some s' =>
                    obtain ⟨sid, -, forwarded⟩ := Option.bind_eq_some_iff.mp fallback
                    exact handshake.trans (forward_calm forwarded)

theorem applyRoam_calm (s : Server σ) (env : ServerEnv) (sid : SessionId) (newAddr : SocketAddr) :
    Calm s (s.applyRoam env sid newAddr) := by
  unfold applyRoam
  split
  · exact .refl s
  · simp only
    split
    · exact .refl s
    · exact .of_same rfl rfl rfl rfl (List.Sublist.refl _)

theorem handleControlCommand_calm (s : Server σ) (command : ControlCommand) :
    Calm s (s.handleControlCommand command) := by
  cases command with
  | listSessions => exact .refl s
  | revoke peerKey => exact signalAll_calm s _
  | disconnect sessionId peerKey =>
      simp only [handleControlCommand, evictSessions]
      split
      · exact signalAll_calm s _
      · exact signalAll_calm s _
      · exact .refl s

/-- What a step does to the channels of the TUN device: it leaves them alone, or takes a
    turn, routes a packet, goes on with one, writes a post, or drops the posts. -/
inductive Flow (ctx : ServerCtx σ) (s : Server σ) : ServerEvent → Server σ → Prop where
  | calm {e : ServerEvent} {s' : Server σ} (calm : Calm s s') : Flow ctx s e s'
  | turn {i : Nat} {env : Env} {branch : Branch} {s' : Server σ}
      (turned : s.stepTask i env branch = some s') :
      Flow ctx s (.task i env branch) s'
  | routes {env : ServerEnv} {packet : Bytes} {i : Nat} {s' : Server σ}
      (inside : i < s.tasks.length) (free : s.waiting = []) (given : s.GivesTo s' i packet) :
      Flow ctx s (.dispatcher env (.tun packet)) s'
  | resumes {env : ServerEnv} {n i : Nat} {packet : Bytes} (inside : i < s.tasks.length)
      (held : s.awaiting = .backpressure i packet) :
      Flow ctx s (.dispatcher env (.resume n)) { s.pushTun i packet with awaiting := .nothing }
  | writes {env : ServerEnv} {p : Post} {rest : List Post} (going : s.stopped = false)
      (queue : s.tunWriteRx = p :: rest) : Flow ctx s (.dispatcher env .tunWrite)
        (s.handlePost ctx p rest)
  | stops {e : ServerEvent} : Flow ctx s e s.shutdown

theorem routeTunPacket_flow (owned : s.Owned) (free : s.waiting = []) (env : ServerEnv)
    (packet : Bytes) :
    Flow ctx s (.dispatcher env (.tun packet)) (s.routeTunPacket env packet) := by
  unfold routeTunPacket
  split
  · exact .calm (.refl s)
  · simp only
    split
    · exact .calm (.refl s)
    · rename_i e search
      have found : s.sessions.lookup e.1 = some e.2 := AList.mem_lookup_iff.mpr
        ((env.order.perm _).mem_iff.mp (List.mem_of_find?_eq_some search))
      obtain ⟨t, isTask, -⟩ := owned e.1 e.2 found
      have inside := (List.getElem?_eq_some_iff.mp isTask).1
      split
      · exact .routes inside free (.inl rfl)
      · exact .routes inside free (.inr rfl)

theorem resume_flow {env : ServerEnv} {n : Nat} (resumed : s.resume ctx env n = some s') :
    Flow ctx s (.dispatcher env (.resume n)) s' := by
  unfold resume at resumed
  cases awaited : s.awaiting with
  | nothing => simp [awaited] at resumed
  | backpressure i packet =>
      cases isTask : s.tasks[i]? with
      | none => simp [awaited, isTask] at resumed
      | some t =>
          simp only [awaited, isTask] at resumed
          split at resumed
          · cases resumed
            exact .calm (.of_same rfl rfl rfl rfl (List.nil_sublist _))
          · rw [Option.ite_none_right_eq_some] at resumed
            cases resumed.2
            exact .resumes (List.getElem?_eq_some_iff.mp isTask).1 awaited
  | message1 i =>
      have free : s.waiting = [] := by rw [waiting, awaited]
      cases isConnection : s.connections[i]? with
      | none => simp [awaited, isConnection] at resumed
      | some c =>
          simp only [awaited, isConnection] at resumed
          cases read : (c.readTurn n).1 with
          | message msg1 =>
              simp only [read] at resumed
              cases resumed
              have reads : Calm s { s with
                  connections := s.connections.set i (c.readTurn n).2
                  awaiting := .nothing } :=
                .of_same rfl rfl rfl rfl (List.nil_sublist _)
              exact .calm (reads.trans (handleHandshake_calm _ env msg1 _ _))
          | more =>
              simp only [read] at resumed
              cases resumed
              refine .calm (.of_same rfl rfl rfl rfl ?_)
              simp only [waiting, awaited]
              exact List.Sublist.refl _
          | closed =>
              simp only [read] at resumed
              cases resumed
              exact .calm (.of_same rfl rfl rfl rfl (List.nil_sublist _))
          | wait =>
              simp only [read] at resumed
              cases resumed

theorem stepDispatcher_flow {env : ServerEnv} {branch : DispatcherBranch} (owned : s.Owned)
    (going : s.stopped = false) (free : s.waiting = [])
    (stepped : s.stepDispatcher ctx env branch = some s') :
    Flow ctx s (.dispatcher env branch) s' := by
  cases branch with
  | stop requested =>
      cases stepped
      split
      · exact .stops
      · exact .calm (.refl s)
  | tun packet =>
      cases stepped
      exact routeTunPacket_flow owned free env packet
  | tunError =>
      cases stepped
      exact .stops
  | tunWrite =>
      simp only [stepDispatcher] at stepped
      split at stepped
      · cases stepped
      · rename_i queue
        cases stepped
        exact .writes going queue
  | addrChange =>
      simp only [stepDispatcher] at stepped
      split at stepped
      · cases stepped
      · cases stepped
        refine .calm (Calm.trans ?_ (applyRoam_calm _ env _ _))
        exact .of_same rfl rfl rfl rfl (List.Sublist.refl _)
  | control command =>
      cases stepped
      exact .calm (handleControlCommand_calm s command)
  | datagram data source =>
      simp only [stepDispatcher, Option.ite_none_right_eq_some] at stepped
      cases stepped.2
      exact .calm (dispatchDatagram_calm s env data source)
  | connection source =>
      simp only [stepDispatcher, Option.ite_none_right_eq_some] at stepped
      cases stepped.2
      exact .calm (.of_same rfl rfl rfl rfl (List.nil_sublist _))
  | acceptError =>
      cases stepped
      exact .calm (.refl s)
  | sweep =>
      cases stepped
      exact .calm (.of_same rfl rfl rfl rfl (List.Sublist.refl _))
  | resume n => cases stepped

theorem step_flow {e : ServerEvent} (owned : s.Owned) (stepped : s.step ctx e = some s') :
    Flow ctx s e s' := by
  cases e with
  | dispatcher env branch =>
      obtain ⟨going, ⟨free, branched⟩ | ⟨n, rfl, resumed⟩⟩ :=
        step_dispatcher_cases ctx s stepped
      · exact stepDispatcher_flow owned going (by rw [waiting, free]) branched
      · exact resume_flow resumed
  | task i env branch => exact .turn stepped
  | taskEnds i =>
      simp only [step, endTask] at stepped
      split at stepped
      · cases stepped
      · rw [Option.ite_none_left_eq_some] at stepped
        cases stepped.2
        exact .calm (.updateTask s i (fun _ => rfl) fun _ => rfl)
  | bytes i chunk =>
      simp only [step, Option.ite_none_right_eq_some] at stepped
      cases stepped.2
      exact .calm (.of_same rfl rfl rfl rfl (List.Sublist.refl _))
  | eof i =>
      cases stepped
      exact .calm (.of_same rfl rfl rfl rfl (List.Sublist.refl _))
  | auth change =>
      cases stepped
      exact .calm (.of_same rfl rfl rfl rfl (List.Sublist.refl _))

end Server

end Rustnies
