import Rustnies.Server.Sessions

/-! # Return traffic

A packet that a client sent teaches the server the address it was sent from, and a
packet read from the TUN device goes to a session that holds its destination. The
session of a post is found by its id, and learning an address takes it from no
other session, so the return path is right as long as no session sends from an
address that another live session holds, and no post outlives its session under an
id that is taken again.
-/

namespace Rustnies.Server

variable {σ : Type} {ctx : ServerCtx σ} {s s' : Server σ}

/-! ## Posts -/

/-- A post carries the id of the session that its task runs. -/
def Tagged (s : Server σ) (p : Post) : Prop :=
  ∃ t, s.tasks[p.task]? = some t ∧ t.sessionId = p.sessionId

theorem Tagged.evolves {scope : Scope} {p : Post} (tagged : s.Tagged p)
    (evolves : Evolves ctx scope s s') :
    s'.Tagged p := by
  obtain ⟨t, isTask, own⟩ := tagged
  obtain ⟨t', isTask', moves⟩ := evolves.tasks isTask
  exact ⟨t', isTask', moves.identity.2.1.trans own⟩

/-- What writes nothing to the TUN device and posts nothing. -/
structure SamePosts (s s' : Server σ) : Prop where
  tunOut : s'.tunOut = s.tunOut
  tunWriteRx : s'.tunWriteRx ⊆ s.tunWriteRx

theorem SamePosts.refl (s : Server σ) : SamePosts s s := ⟨rfl, List.Subset.refl _⟩

theorem SamePosts.of_eq (tunOut : s'.tunOut = s.tunOut)
    (tunWriteRx : s'.tunWriteRx = s.tunWriteRx) :
    SamePosts s s' :=
  ⟨tunOut, by rw [tunWriteRx]; exact List.Subset.refl _⟩

theorem SamePosts.trans {s'' : Server σ} (first : SamePosts s s') (second : SamePosts s' s'') :
    SamePosts s s'' :=
  ⟨second.tunOut.trans first.tunOut, List.Subset.trans second.tunWriteRx first.tunWriteRx⟩

theorem removeSession_posts (s : Server σ) (sid : SessionId) :
    SamePosts s (s.removeSession sid) := by
  unfold removeSession
  split
  · exact .refl s
  · exact .of_eq rfl rfl

theorem signalAll_posts (s : Server σ) (victims : List (Sigma fun _ : SessionId => ClientHandle)) :
    SamePosts s (s.signalAll victims) := by
  induction victims generalizing s with
  | nil => exact .refl s
  | cons e victims ih =>
      have first : SamePosts s (s.signalEvict e.2.task) := .of_eq rfl rfl
      exact first.trans (ih _)

theorem forward_posts {now : Instant} {datagram : Bytes} {source : SocketAddr} {sid : SessionId}
    (forwarded : s.forward now datagram source sid = some s') : SamePosts s s' := by
  unfold forward at forwarded
  split at forwarded
  · cases forwarded
  · split at forwarded
    · cases forwarded
    · rw [Option.ite_none_left_eq_some] at forwarded
      cases forwarded.2
      exact .of_eq rfl rfl

theorem evictOldestPeerSession_posts (s : Server σ) (order : IterOrder) (peerKey : Bytes)
    (max : UInt8) :
    SamePosts s (s.evictOldestPeerSession order peerKey max) := by
  cases victim : s.capVictim order peerKey max with
  | none =>
      rw [evictOldestPeerSession_none victim]
      exact .refl s
  | some sid =>
      obtain ⟨h, found, -⟩ := capVictim_spec victim
      rw [evictOldestPeerSession_victim victim found]
      have signalled : SamePosts s (s.signalEvict h.task) := .of_eq rfl rfl
      have removed := signalled.trans (removeSession_posts (s.signalEvict h.task) sid)
      exact ⟨removed.tunOut, removed.tunWriteRx⟩

theorem spawnClient_posts (s : Server σ) (env : ServerEnv) (carrier : SessionCarrier)
    (resolved : ResolvedProfile) (established : SessionEstablished UInt8)
    (keystream : Option Bytes) :
    SamePosts s (s.spawnClient ctx env carrier resolved established keystream) := by
  have removed := removeSession_posts
    { s with tasks := s.tasks ++ [newTask ctx env carrier resolved established] }
      established.sessionId
  exact ⟨removed.tunOut, removed.tunWriteRx⟩

theorem acceptHandshake_posts (s : Server σ) (env : ServerEnv) (msg1 : Bytes)
    (carrier : SessionCarrier) (established : SessionEstablished UInt8) :
    SamePosts s (s.acceptHandshake ctx env msg1 carrier established).2 := by
  have evicted :=
    evictOldestPeerSession_posts s env.order established.peerStatic ctx.maxSessionsPerPeer
  unfold acceptHandshake
  cases ResolvedProfile.withHandshakeTransport established.selection
    ctx.profile.handshakeTransport with
  | error e => exact evicted
  | ok resolved =>
      have spawned : SamePosts _ (spawnClient ctx env _ carrier resolved established _) :=
        spawnClient_posts
          (s.evictOldestPeerSession env.order established.peerStatic ctx.maxSessionsPerPeer) env
          carrier resolved established
          (extractHeaderXorKeystream ctx established.handshakeHash resolved.codec.maxHeaderLen)
      have both := evicted.trans spawned
      exact ⟨both.tunOut, both.tunWriteRx⟩

theorem handleHandshake_posts (s : Server σ) (env : ServerEnv) (msg1 : Bytes) (source : SocketAddr)
    (carrier : SessionCarrier) : SamePosts s (s.handleHandshake ctx env msg1 source carrier).2 := by
  have probed : SamePosts s { s with probes := s.probes ++ [msg1] } := .of_eq rfl rfl
  unfold handleHandshake
  cases s.respond ctx env msg1 source with
  | none => exact probed
  | some answer =>
      simp only
      split
      · exact probed.trans (acceptHandshake_posts _ env msg1 carrier answer.1)
      · exact probed

theorem dispatchDatagram_posts (s : Server σ) (env : ServerEnv) (datagram : Bytes)
    (source : SocketAddr) :
    SamePosts s (s.dispatchDatagram ctx env datagram source) := by
  unfold dispatchDatagram
  have limited : SamePosts s { s with probeLimiter := (s.probeLimiter.allow env.now source).2 } :=
    .of_eq rfl rfl
  have handshake : SamePosts _ (handleHandshake ctx env _ datagram source .shared).2 :=
    handleHandshake_posts { s with probeLimiter := (s.probeLimiter.allow env.now source).2 } env
      datagram source .shared
  simp only
  cases routed : (s.peekRoutedSession env.order ctx.profile.handshakeTransport datagram).bind
      (s.forward env.now datagram source) with
  | some s' =>
      obtain ⟨sid, -, forwarded⟩ := Option.bind_eq_some_iff.mp routed
      exact forward_posts forwarded
  | none =>
      simp only
      split
      · exact limited
      · cases answered : handleHandshake ctx env
            { s with probeLimiter := (s.probeLimiter.allow env.now source).2 } datagram source
              .shared with
        | mk accepted after =>
            rw [answered] at handshake
            have both := limited.trans handshake
            cases accepted with
            | true => exact both
            | false =>
                simp only
                cases fallback : (after.addrFallback source).bind
                  (after.forward env.now datagram source) with
                | none => exact both
                | some s' =>
                    obtain ⟨sid, -, forwarded⟩ := Option.bind_eq_some_iff.mp fallback
                    exact both.trans (forward_posts forwarded)

theorem resume_posts {env : ServerEnv} {n : Nat} (resumed : s.resume ctx env n = some s') :
    SamePosts s s' := by
  unfold resume at resumed
  cases awaited : s.awaiting with
  | nothing => simp [awaited] at resumed
  | backpressure i packet =>
      cases isTask : s.tasks[i]? with
      | none => simp [awaited, isTask] at resumed
      | some t =>
          simp only [awaited, isTask] at resumed
          split at resumed
          · cases resumed
            exact .of_eq rfl rfl
          · rw [Option.ite_none_right_eq_some] at resumed
            cases resumed.2
            exact .of_eq rfl rfl
  | message1 i =>
      cases isConnection : s.connections[i]? with
      | none => simp [awaited, isConnection] at resumed
      | some c =>
          simp only [awaited, isConnection] at resumed
          cases read : (c.readTurn n).1 with
          | message msg1 =>
              simp only [read] at resumed
              cases resumed
              have waiting : SamePosts s { s with
                  connections := s.connections.set i (c.readTurn n).2
                  awaiting := .nothing } := .of_eq rfl rfl
              exact waiting.trans (handleHandshake_posts _ env msg1 _ _)
          | more =>
              simp only [read] at resumed
              cases resumed
              exact .of_eq rfl rfl
          | closed =>
              simp only [read] at resumed
              cases resumed
              exact .of_eq rfl rfl
          | wait =>
              simp only [read] at resumed
              cases resumed

/-- What the dispatcher does with a post. -/
def handlePost (ctx : ServerCtx σ) (s : Server σ) (p : Post) (rest : List Post) : Server σ :=
  let s := { s with tunWriteRx := rest }.learnTunIp ctx p.sessionId p.packet
  { s with tunOut := s.tunOut ++ [p] }

theorem stepDispatcher_posts {env : ServerEnv} {branch : DispatcherBranch}
    (stepped : s.stepDispatcher ctx env branch = some s') :
    (branch ≠ .tunWrite ∧ SamePosts s s') ∨
      (branch = .tunWrite ∧ ∃ p rest, s.tunWriteRx = p :: rest ∧
        s' = s.handlePost ctx p rest) := by
  cases branch with
  | stop requested =>
      cases stepped
      refine .inl ⟨by simp, ?_⟩
      split
      · exact ⟨rfl, List.nil_subset _⟩
      · exact .refl s
  | tun packet =>
      cases stepped
      refine .inl ⟨by simp, ?_⟩
      unfold routeTunPacket
      split
      · exact .refl s
      · simp only
        split
        · exact .refl s
        · split
          · exact .of_eq rfl rfl
          · exact .of_eq rfl rfl
  | tunError =>
      cases stepped
      exact .inl ⟨by simp, rfl, List.nil_subset _⟩
  | tunWrite =>
      simp only [stepDispatcher] at stepped
      split at stepped
      · cases stepped
      · rename_i post rest queue
        cases stepped
        exact .inr ⟨rfl, post, rest, queue, rfl⟩
  | addrChange =>
      simp only [stepDispatcher] at stepped
      split at stepped
      · cases stepped
      · cases stepped
        refine .inl ⟨by simp, ?_⟩
        unfold applyRoam
        split
        · exact .of_eq rfl rfl
        · simp only
          split
          · exact .of_eq rfl rfl
          · exact .of_eq rfl rfl
  | control command =>
      cases stepped
      refine .inl ⟨by simp, ?_⟩
      cases command with
      | listSessions => exact .refl s
      | revoke peerKey => exact signalAll_posts s _
      | disconnect sessionId peerKey =>
          simp only [handleControlCommand, evictSessions]
          split
          · exact signalAll_posts s _
          · exact signalAll_posts s _
          · exact .refl s
  | datagram data source =>
      simp only [stepDispatcher, Option.ite_none_right_eq_some] at stepped
      obtain ⟨-, dispatched⟩ := stepped
      cases dispatched
      exact .inl ⟨by simp, dispatchDatagram_posts s env data source⟩
  | connection source =>
      simp only [stepDispatcher, Option.ite_none_right_eq_some] at stepped
      obtain ⟨-, accepted⟩ := stepped
      cases accepted
      exact .inl ⟨by simp, .of_eq rfl rfl⟩
  | acceptError =>
      cases stepped
      exact .inl ⟨by simp, .refl s⟩
  | sweep =>
      cases stepped
      exact .inl ⟨by simp, .of_eq rfl rfl⟩
  | resume n => cases stepped

theorem stepTask_posts {i : Nat} {env : Env} {branch : Branch}
    (stepped : s.stepTask i env branch = some s') :
    s'.tunOut = s.tunOut ∧ ∀ p ∈ s'.tunWriteRx, p ∈ s.tunWriteRx ∨ s.Tagged p := by
  unfold stepTask at stepped
  cases isTask : s.tasks[i]? with
  | none => simp [isTask] at stepped
  | some t =>
      simp only [isTask, Option.map_eq_some_iff] at stepped
      obtain ⟨t', -, rfl⟩ := stepped
      split
      · exact ⟨rfl, fun p queued => .inl queued⟩
      · refine ⟨rfl, fun p queued => ?_⟩
        rcases List.mem_append.mp queued with before | posted
        · exact .inl before
        · obtain ⟨w, -, rfl⟩ := List.mem_map.mp posted
          exact .inr ⟨t, isTask, rfl⟩

theorem step_posts {e : ServerEvent} (stepped : s.step ctx e = some s') :
    ((∀ env, e ≠ .dispatcher env .tunWrite) ∧ s'.tunOut = s.tunOut ∧
        ∀ p ∈ s'.tunWriteRx, p ∈ s.tunWriteRx ∨ s.Tagged p) ∨
      ∃ env p rest, e = .dispatcher env .tunWrite ∧ s.tunWriteRx = p :: rest ∧
        s' = s.handlePost ctx p rest := by
  have quiet : SamePosts s s' →
      s'.tunOut = s.tunOut ∧ ∀ p ∈ s'.tunWriteRx, p ∈ s.tunWriteRx ∨ s.Tagged p :=
    fun same => ⟨same.tunOut, fun p queued => .inl (same.tunWriteRx queued)⟩
  cases e with
  | dispatcher env branch =>
      obtain ⟨-, ⟨-, branched⟩ | ⟨n, rfl, resumed⟩⟩ :=
        step_dispatcher_cases ctx s stepped
      · rcases stepDispatcher_posts branched
          with ⟨other, same⟩ | ⟨rfl, p, rest, queue, rfl⟩
        · exact .inl ⟨fun _ same => other (by cases same; rfl), quiet same⟩
        · exact .inr ⟨env, p, rest, rfl, queue, rfl⟩
      · exact .inl ⟨by simp, quiet (resume_posts resumed)⟩
  | task i env branch => exact .inl ⟨by simp, stepTask_posts stepped⟩
  | taskEnds i =>
      refine .inl ⟨by simp, quiet ?_⟩
      simp only [step, endTask] at stepped
      split at stepped
      · cases stepped
      · rw [Option.ite_none_left_eq_some] at stepped
        cases stepped.2
        exact .of_eq rfl rfl
  | bytes i chunk =>
      simp only [step, Option.ite_none_right_eq_some] at stepped
      cases stepped.2
      exact .inl ⟨by simp, quiet (.of_eq rfl rfl)⟩
  | eof i =>
      cases stepped
      exact .inl ⟨by simp, quiet (.of_eq rfl rfl)⟩
  | auth change =>
      cases stepped
      exact .inl ⟨by simp, quiet (.of_eq rfl rfl)⟩

/-! ## What a session holds -/

theorem allows_unlearning {e : ServerEvent} (other : ∀ env, e ≠ .dispatcher env .tunWrite) :
    Allows ctx .unlearning s e :=
  ⟨fun env isWrite => absurd isWrite (other env), fun _ _ _ _ => trivial, fun _ _ _ _ _ =>
    trivial, fun _ => trivial⟩

theorem Live.before {scope : Scope} {sid : SessionId} {h' : ClientHandle} (live : s'.Live sid h')
    (owned : s.Owned) (evolves : Evolves ctx scope s s') :
    (∃ h, s.Live sid h ∧ HandleMoves scope h h') ∨
      ∃ h, h.tunIps = ∅ ∧ HandleMoves scope h h' ∧ s.tasks.length ≤ h'.task := by
  rcases evolves.sessions live.1 with ⟨h, found, moves⟩ | ⟨h, t', -, empty, moves, fresh, -⟩
  · refine .inl ⟨h, ⟨found, ?_⟩, moves⟩
    obtain ⟨t, isTask, -⟩ := owned sid h found
    obtain ⟨t', isTask', later⟩ := evolves.tasks isTask
    have isOpen := live.2
    simp only [taskClosed, HandleMoves.task moves, isTask', Option.map_some,
      Option.getD_some] at isOpen
    simp only [taskClosed, isTask, Option.map_some, Option.getD_some]
    refine Bool.eq_false_iff.mpr fun ended => ?_
    rw [later.released.2 ended] at isOpen
    cases isOpen
  · exact .inr ⟨h, empty, moves, fresh⟩

/-- The dispatcher's knowledge, whatever the clients send: a session holds every
    plausible address that its task has sent from. -/
structure Learned (ctx : ServerCtx σ) (s : Server σ) : Prop where
  owned : s.Owned
  queued : ∀ p ∈ s.tunWriteRx, s.Tagged p
  written : ∀ p ∈ s.tunOut, s.Tagged p
  held : ∀ p ∈ s.tunOut, ∀ sid h a, s.sessions.lookup sid = some h → h.task = p.task →
    ipv4Src p.packet = some a → shouldLearnTunIp a ctx.tunNets = true → a ∈ h.tunIps

theorem handlePost_lookup {p : Post} {rest : List Post} {sid : SessionId} {h' : ClientHandle}
    (found : (s.handlePost ctx p rest).sessions.lookup sid = some h') :
    ∃ h, s.sessions.lookup sid = some h ∧ h'.task = h.task ∧
      ((h'.tunIps = h.tunIps ∧ (sid = p.sessionId → ∀ a, ipv4Src p.packet = some a →
          shouldLearnTunIp a ctx.tunNets = false)) ∨
        (sid = p.sessionId ∧ ∃ a, ipv4Src p.packet = some a ∧
            shouldLearnTunIp a ctx.tunNets = true ∧ h'.tunIps = insert a h.tunIps)) := by
  simp only [handlePost, learnTunIp] at found
  cases isSource : ipv4Src p.packet with
  | none =>
      simp only [isSource] at found
      exact ⟨h', found, rfl, .inl ⟨rfl, fun _ a source => nomatch source⟩⟩
  | some a =>
      cases poster : s.sessions.lookup p.sessionId with
      | none =>
          simp only [isSource, poster] at found
          refine ⟨h', found, rfl, .inl ⟨rfl, fun same => ?_⟩⟩
          rw [same, poster] at found
          cases found
      | some h =>
          simp only [isSource, poster] at found
          by_cases same : sid = p.sessionId
          · subst same
            refine ⟨h, poster, ?_⟩
            cases fitting : shouldLearnTunIp a ctx.tunNets with
            | true =>
                rw [if_pos fitting, setHandle, AList.lookup_insert] at found
                cases found
                exact ⟨rfl, .inr ⟨rfl, a, rfl, fitting, rfl⟩⟩
            | false =>
                rw [if_neg (by simp [fitting]), setHandle, AList.lookup_insert] at found
                cases found
                refine ⟨rfl, .inl ⟨rfl, fun _ a' source => ?_⟩⟩
                cases source
                exact fitting
          · refine ⟨h', ?_, rfl, .inl ⟨rfl, fun own => absurd own same⟩⟩
            split at found
            · rwa [setHandle, AList.lookup_insert_ne same] at found
            · rwa [setHandle, AList.lookup_insert_ne same] at found

theorem handlePost_tasks (ctx : ServerCtx σ) (s : Server σ) (p : Post) (rest : List Post) :
    (s.handlePost ctx p rest).tasks = s.tasks := by
  simp only [handlePost, learnTunIp]
  split
  · split
    · rfl
    · rfl
  · rfl

theorem handlePost_queues (ctx : ServerCtx σ) (s : Server σ) (p : Post) (rest : List Post) :
    (s.handlePost ctx p rest).tunOut = s.tunOut ++ [p] ∧
    (s.handlePost ctx p rest).tunWriteRx = rest := by
  simp only [handlePost, learnTunIp]
  split
  · split
    · exact ⟨rfl, rfl⟩
    · exact ⟨rfl, rfl⟩
  · exact ⟨rfl, rfl⟩

theorem Learned.step {e : ServerEvent} (learned : Learned ctx s)
    (stepped : s.step ctx e = some s') :
    Learned ctx s' := by
  have evolves := step_evolves ctx .any s stepped (allows_any ctx s e)
  rcases step_posts stepped with ⟨other, tunOut, queue⟩ | ⟨env, p, rest, rfl, queue, rfl⟩
  · have quiet := step_evolves ctx .unlearning s stepped (allows_unlearning other)
    refine ⟨learned.owned.evolves evolves, fun p queued => ?_, fun p written => ?_, ?_⟩
    · rcases queue p queued with before | tagged
      · exact (learned.queued p before).evolves evolves
      · exact tagged.evolves evolves
    · rw [tunOut] at written
      exact (learned.written p written).evolves evolves
    · intro p written sid h' a found task source fitting
      rw [tunOut] at written
      rcases quiet.sessions found with ⟨h, found₀, moves⟩ | ⟨-, -, -, -, -, fresh, -⟩
      · rw [HandleMoves.tunIps moves id]
        exact learned.held p written sid h a found₀ (by rw [← task, HandleMoves.task moves])
          source fitting
      · obtain ⟨t, isTask, -⟩ := learned.written p written
        have inside := (List.getElem?_eq_some_iff.mp isTask).1
        omega
  · obtain ⟨tunOut, tunWriteRx⟩ := handlePost_queues ctx s p rest
    have tasks := handlePost_tasks ctx s p rest
    have tagged := learned.queued p (by rw [queue]; exact List.mem_cons_self)
    refine ⟨learned.owned.evolves evolves, fun q queued => ?_, fun q written => ?_, ?_⟩
    · rw [tunWriteRx] at queued
      exact (learned.queued q (by rw [queue]; exact List.mem_cons_of_mem _ queued)).evolves evolves
    · rw [tunOut, List.mem_append, List.mem_singleton] at written
      rcases written with before | rfl
      · exact (learned.written q before).evolves evolves
      · exact tagged.evolves evolves
    · intro q written sid h' a found task source fitting
      obtain ⟨h, found₀, sameTask, addresses⟩ := handlePost_lookup found
      rw [tunOut, List.mem_append, List.mem_singleton] at written
      rcases written with before | rfl
      · have old :=
          learned.held q before sid h a found₀ (sameTask.symm.trans task) source fitting
        rcases addresses with ⟨same, -⟩ | ⟨-, b, -, -, more⟩
        · rw [same]
          exact old
        · rw [more]
          exact Finset.mem_insert_of_mem old
      · -- the task of the post runs the session of this entry
        have own : sid = q.sessionId := by
          obtain ⟨t, isTask, sid_eq⟩ := learned.owned sid h found₀
          obtain ⟨t', isTask', sid_eq'⟩ := tagged
          rw [← sameTask, task, isTask'] at isTask
          cases isTask
          exact sid_eq.symm.trans sid_eq'
        rcases addresses with ⟨-, misfit⟩ | ⟨-, b, isSource, -, more⟩
        · rw [misfit own a source] at fitting
          cases fitting
        · cases isSource.symm.trans source
          rw [more]
          exact Finset.mem_insert_self _ _

/-! ## The return path -/

/-- A live session holds the address. -/
def Holds (s : Server σ) (a : Ipv4Addr) (sid : SessionId) (h : ClientHandle) : Prop :=
  s.Live sid h ∧ a ∈ h.tunIps

/-- The live session that most recently sent from the address: no packet from it by
    another live session was written to the TUN device after one of its own. -/
def LastSender (s : Server σ) (a : Ipv4Addr) (sid : SessionId) (h : ClientHandle) : Prop :=
  s.Live sid h ∧ ∃ before p after, s.tunOut = before ++ p :: after ∧ p.task = h.task ∧
    ipv4Src p.packet = some a ∧
    ∀ q ∈ after, ipv4Src q.packet = some a → ∀ sid' h', s.Live sid' h' → h'.task =
      q.task → sid' = sid

/-- The packet is put into the task's TUN channel, or the dispatcher waits for a place
    in it. -/
def GivesTo (s s' : Server σ) (i : Nat) (packet : Bytes) : Prop :=
  s' = s.pushTun i packet ∨ s' = { s with awaiting := .backpressure i packet }

/-- No address has two live holders, and the holder of a plausible address is the
    session that most recently sent from it, which gets the packets for it. -/
structure ReturnPath (ctx : ServerCtx σ) (s : Server σ) : Prop where
  unique : ∀ a sid h sid' h', s.Holds a sid h → s.Holds a sid' h' → sid = sid'
  holder : ∀ a sid h, shouldLearnTunIp a ctx.tunNets =
    true → (s.Holds a sid h ↔ s.LastSender a sid h)
  delivers : ∀ a sid h env packet s', s.Holds a sid h → ipv4Dst packet = some a →
    s.step ctx (.dispatcher env (.tun packet)) = some s' → s.GivesTo s' h.task packet ∧
    s.LastSender a sid h

/-- The next post is from an address that its session holds, or that no live session
    holds, and its task is still the one of the session. -/
def SendsOwnAddress (ctx : ServerCtx σ) (s : Server σ) (e : ServerEvent) : Prop :=
  ∀ env p rest a h, e = .dispatcher env .tunWrite → s.tunWriteRx = p ::
    rest → ipv4Src p.packet = some a → shouldLearnTunIp a ctx.tunNets =
    true → s.Live p.sessionId h →
      a ∈ h.tunIps ∨ (h.task = p.task ∧ ∀ sid' h', ¬ s.Holds a sid' h')

/-- What the condition adds: an address that is held was sent from, and by no other. -/
structure Exclusive (ctx : ServerCtx σ) (s : Server σ) : Prop extends Learned ctx s where
  unique : ∀ a sid h sid' h', s.Holds a sid h → s.Holds a sid' h' → sid = sid'
  heard : ∀ a sid h, s.Holds a sid h → shouldLearnTunIp a ctx.tunNets = true ∧
    ∃ p ∈ s.tunOut, p.task = h.task ∧ ipv4Src p.packet = some a

theorem Holds.before_post {p : Post} {rest : List Post} {a : Ipv4Addr} {sid : SessionId}
    {h' : ClientHandle} (holds : (s.handlePost ctx p rest).Holds a sid h') :
    ∃ h, s.Live sid h ∧ h'.task = h.task ∧
    (a ∈ h.tunIps ∨ (a ∉ h.tunIps ∧ sid = p.sessionId ∧ ipv4Src p.packet = some a ∧
      shouldLearnTunIp a ctx.tunNets = true)) := by
  obtain ⟨⟨found, isOpen⟩, member⟩ := holds
  obtain ⟨h, found₀, sameTask, addresses⟩ := handlePost_lookup found
  have live : s.Live sid h := by
    refine ⟨found₀, ?_⟩
    rw [← sameTask]
    simpa only [taskClosed, handlePost_tasks] using isOpen
  refine ⟨h, live, sameTask, ?_⟩
  by_cases old : a ∈ h.tunIps
  · exact .inl old
  · rcases addresses with ⟨same, -⟩ | ⟨own, b, source, fitting, more⟩
    · rw [same] at member
      exact absurd member old
    · rw [more, Finset.mem_insert] at member
      rcases member with rfl | member
      · exact .inr ⟨old, own, source, fitting⟩
      · exact absurd member old

theorem Exclusive.step {e : ServerEvent} (exclusive : Exclusive ctx s)
    (fair : SendsOwnAddress ctx s e) (stepped : s.step ctx e = some s') : Exclusive ctx s' := by
  have learned := exclusive.toLearned.step stepped
  rcases step_posts stepped with ⟨other, tunOut, -⟩ | ⟨env, p, rest, rfl, queue, rfl⟩
  · have quiet := step_evolves ctx .unlearning s stepped (allows_unlearning other)
    have before : ∀ {a sid h'}, s'.Holds a sid h' → ∃ h, s.Holds a sid h ∧
      h'.task = h.task := by
      intro a sid h' holds
      rcases holds.1.before exclusive.owned quiet
        with ⟨h, live, moves⟩ | ⟨h, empty, moves, -⟩
      · exact ⟨h, ⟨live, HandleMoves.tunIps moves id ▸ holds.2⟩, HandleMoves.task moves⟩
      · have member := holds.2
        rw [HandleMoves.tunIps moves id, empty] at member
        exact absurd member (Finset.notMem_empty _)
    refine ⟨learned, fun a sid h sid' h' holds holds' => ?_, fun a sid h' holds => ?_⟩
    · obtain ⟨h₀, first, -⟩ := before holds
      obtain ⟨h₀', second, -⟩ := before holds'
      exact exclusive.unique a sid h₀ sid' h₀' first second
    · obtain ⟨h, held, task⟩ := before holds
      rw [tunOut, task]
      exact exclusive.heard a sid h held
  · have written : (s.handlePost ctx p rest).tunOut = s.tunOut ++ [p] :=
      (handlePost_queues ctx s p rest).1
    -- a new holder sends from an address that nobody held
    have newHolder : ∀ {a sid h}, s.Live sid h → a ∉ h.tunIps → sid = p.sessionId →
        ipv4Src p.packet = some a → shouldLearnTunIp a ctx.tunNets = true →
        h.task = p.task ∧ ∀ sid' h', ¬ s.Holds a sid' h' := by
      intro a sid h live new own source fitting
      rcases fair env p rest a h rfl queue source fitting (own ▸ live) with old | alone
      · exact absurd old new
      · exact alone
    refine ⟨learned, fun a sid h sid' h' holds holds' => ?_, fun a sid h' holds => ?_⟩
    · obtain ⟨h₀, live, -, old | ⟨new, own, source, fitting⟩⟩ := holds.before_post
      · obtain ⟨h₀', live', -, old' | ⟨new', own', source', fitting'⟩⟩ :=
          holds'.before_post
        · exact exclusive.unique a sid h₀ sid' h₀' ⟨live, old⟩ ⟨live', old'⟩
        · exact absurd ⟨live, old⟩ ((newHolder live' new' own' source' fitting').2 sid h₀)
      · obtain ⟨h₀', live', -, old' | ⟨-, own', -⟩⟩ := holds'.before_post
        · exact absurd ⟨live', old'⟩ ((newHolder live new own source fitting).2 sid' h₀')
        · exact own.trans own'.symm
    · obtain ⟨h, live, task, old | ⟨new, own, source, fitting⟩⟩ := holds.before_post
      · obtain ⟨fitting, q, sent, sameTask, source⟩ := exclusive.heard a sid h ⟨live, old⟩
        refine ⟨fitting, q, ?_, sameTask.trans task.symm, source⟩
        rw [written]
        exact List.mem_append_left _ sent
      · refine ⟨fitting, p, ?_, ?_, source⟩
        · rw [written]
          exact List.mem_append_right _ List.mem_cons_self
        · exact ((newHolder live new own source fitting).1.symm).trans task.symm

theorem routeTunPacket_gives
    (unique : ∀ a sid h sid' h', s.Holds a sid h → s.Holds a sid' h' → sid = sid')
    {a : Ipv4Addr} {sid : SessionId} {h : ClientHandle} {packet : Bytes} (env : ServerEnv)
    (holds : s.Holds a sid h) (isDst : ipv4Dst packet = some a) :
    s.GivesTo (s.routeTunPacket env packet) h.task packet := by
  have inside : ∀ e, e ∈ env.order.arrange s.sessions.entries ↔
    s.sessions.lookup e.1 = some e.2 := fun e =>
    (env.order.perm _).mem_iff.trans AList.mem_lookup_iff.symm
  simp only [routeTunPacket, isDst]
  cases search : (env.order.arrange s.sessions.entries).find? fun e =>
      decide (a ∈ e.2.tunIps) && !s.taskClosed e.2.task with
  | none =>
      have missed := List.find?_eq_none.mp search ⟨sid, h⟩ ((inside ⟨sid, h⟩).mpr holds.1.1)
      simp [holds.2, holds.1.2] at missed
  | some e =>
      have matched := List.find?_some search
      simp only [Bool.and_eq_true, decide_eq_true_eq, Bool.not_eq_true'] at matched
      have found := (inside e).mp (List.mem_of_find?_eq_some search)
      have same : e.1 = sid := unique a e.1 e.2 sid h ⟨⟨found, matched.2⟩, matched.1⟩ holds
      rw [same] at found
      cases found.symm.trans holds.1.1
      simp only
      split
      · exact .inl rfl
      · exact .inr rfl

theorem Exclusive.lastSender (exclusive : Exclusive ctx s) {a : Ipv4Addr} {sid : SessionId}
    {h : ClientHandle} (holds : s.Holds a sid h) : s.LastSender a sid h := by
  obtain ⟨fitting, p, sent, task, source⟩ := exclusive.heard a sid h holds
  obtain ⟨before, after, split⟩ := List.append_of_mem sent
  refine ⟨holds.1, before, p, after, split, task, source,
    fun q later source' sid' h' live sameTask => ?_⟩
  have sent' : q ∈ s.tunOut := by
    rw [split]
    exact List.mem_append_right _ (List.mem_cons_of_mem _ later)
  have holds' := exclusive.held q sent' sid' h' a live.1 sameTask source' fitting
  exact exclusive.unique a sid' h' sid h ⟨live, holds'⟩ holds

theorem Exclusive.returnPath (exclusive : Exclusive ctx s) : ReturnPath ctx s where
  unique := exclusive.unique
  holder a sid h fitting := by
    refine ⟨exclusive.lastSender, ?_⟩
    rintro ⟨live, before, p, after, split, task, source, -⟩
    have sent : p ∈ s.tunOut := by
      rw [split]
      exact List.mem_append_right _ List.mem_cons_self
    exact ⟨live, exclusive.held p sent sid h a live.1 task.symm source fitting⟩
  delivers a sid h env packet s' holds isDst stepped := by
    obtain ⟨-, ⟨-, branched⟩ | ⟨n, isResume, -⟩⟩ := step_dispatcher_cases ctx s stepped
    · cases branched
      exact ⟨routeTunPacket_gives exclusive.unique env holds isDst, exclusive.lastSender holds⟩
    · cases isResume

theorem Exclusive.init (ctx : ServerCtx σ) (now : Instant) (peerAuth : PeerAuth) :
    Exclusive ctx (init now peerAuth) := by
  refine ⟨⟨?_, ?_, ?_, ?_⟩, ?_, ?_⟩
  · intro sid h found
    cases found
  · intro p queued
    cases queued
  · intro p written
    cases written
  · intro p written
    cases written
  · intro a sid h sid' h' holds
    cases holds.1.1
  · intro a sid h holds
    cases holds.1.1

theorem Exclusive.run {events : List ServerEvent} (exclusive : Exclusive ctx s)
    (fair : Runs.Along (Server.step ctx) (SendsOwnAddress ctx) s events)
    (ran : Runs.run (Server.step ctx) s events = some s') : Exclusive ctx s' :=
  Runs.invariant_along (Exclusive ctx) (fun _ _ _ ok stepped exclusive => exclusive.step ok stepped)
    fair ran exclusive

/-- In a run in which no session sends from an address that another live session
    holds, every packet for a tunnel address goes to the live session that most
    recently sent from it. -/
theorem returnPath_of_own_addresses {now : Instant} {peerAuth : PeerAuth}
    {events : List ServerEvent}
    (fair : Runs.Along (step ctx) (SendsOwnAddress ctx) (init now peerAuth) events)
    (ran : Runs.run (step ctx) (init now peerAuth) events = some s) : ReturnPath ctx s :=
  ((Exclusive.init ctx now peerAuth).run fair ran).returnPath

/-- The client of a session sends a packet from 10.0.0.src; its task opens it. -/
def sendsPacket (host : SocketAddr) (task : Nat) (sid : SessionId) (src : UInt8) :
    List ServerEvent :=
  [.dispatcher (.small 3 1) (.datagram (smallFrame .data sid 1 (smallPacket src 1)) host),
    .task task (.small 3) .udp]

/-- The dispatcher takes a post. -/
def takesPost : ServerEvent := .dispatcher (.small 4 1) .tunWrite

/-- Two clients connect. -/
def twoClients : List ServerEvent :=
  [.dispatcher (.small 1 5) (.datagram (smallMessage1 9 3) ⟨.v4 1, 1⟩),
    .dispatcher (.small 2 6) (.datagram (smallMessage1 8 4) ⟨.v4 2, 1⟩)]

/-- Both send from 10.0.0.2. -/
def sharedAddress : List ServerEvent :=
  twoClients ++ sendsPacket ⟨.v4 1, 1⟩ 0 84215045 2 ++ sendsPacket ⟨.v4 2, 1⟩ 1 101058054
    2 ++ [takesPost, takesPost]

/-- Whether the session of an id is live and holds the address. -/
def holdsAt (s : Server σ) (a : Ipv4Addr) (sid : SessionId) : Bool :=
  (s.sessions.lookup sid).any fun h => !s.taskClosed h.task && decide (a ∈ h.tunIps)

theorem holdsAt_iff {a : Ipv4Addr} {sid : SessionId} :
    s.holdsAt a sid = true ↔ ∃ h, s.Holds a sid h := by
  simp only [holdsAt, Option.any_eq_true, Bool.and_eq_true, Bool.not_eq_true', decide_eq_true_eq,
    Holds, Live, and_assoc]

/-- Two live sessions hold the address that both clients send from. -/
theorem sharedAddress_two_holders :
    ∃ s, Runs.run (step (ServerCtx.small .udp 0)) (init 0 .openMode) sharedAddress = some s ∧
      (∃ h, s.Holds 0x0A000002 84215045 h) ∧ (∃ h, s.Holds 0x0A000002 101058054 h) ∧
      ¬ ReturnPath (ServerCtx.small .udp 0) s := by
  have evaluated :
    (Runs.run (step (ServerCtx.small .udp 0)) (init 0 .openMode) sharedAddress).any (fun s =>
      s.holdsAt 0x0A000002 84215045 && s.holdsAt 0x0A000002 101058054) = true := by decide
  obtain ⟨s, ran, held⟩ := (Option.any_eq_true _ _).mp evaluated
  obtain ⟨⟨h, holds⟩, ⟨h', holds'⟩⟩ :=
    (Bool.and_eq_true_iff.mp held).imp holdsAt_iff.mp holdsAt_iff.mp
  refine ⟨s, ran, ⟨h, holds⟩, ⟨h', holds'⟩, fun path => ?_⟩
  exact absurd (path.unique _ _ h _ h' holds holds') (by decide)

/-- Each of two clients sends from an address of its own. -/
def ownAddress : List ServerEvent :=
  twoClients ++ sendsPacket ⟨.v4 1, 1⟩ 0 84215045 2 ++ sendsPacket ⟨.v4 2, 1⟩ 1 101058054 3

/-- `SendsOwnAddress`, read off the tables. -/
def checkOwnAddress (s : Server σ) : Bool :=
  s.tunWriteRx.head?.all fun p => (ipv4Src p.packet).all fun a =>
    (s.sessions.lookup p.sessionId).all fun h => decide (a ∈ h.tunIps) ||
      (h.task == p.task && s.sessions.entries.all fun e => decide (a ∉ e.2.tunIps))

theorem sendsOwnAddress_of_check (s : Server σ) (e : ServerEvent)
    (checked : s.checkOwnAddress = true) :
    SendsOwnAddress ctx s e := by
  intro env p rest a h _ queue source _ live
  simp only [checkOwnAddress, queue, List.head?_cons, Option.all_some, source, live.1,
    Bool.or_eq_true, Bool.and_eq_true, decide_eq_true_eq, beq_iff_eq, List.all_eq_true] at checked
  refine checked.imp id fun ⟨task, free⟩ => ⟨task, fun sid' h' holds => ?_⟩
  exact free ⟨sid', h'⟩ (AList.mem_lookup_iff.mp holds.1.1) holds.2

theorem ownAddress_returnPath :
    ∃ s, Runs.Along (step (ServerCtx.small .udp 0)) (SendsOwnAddress (ServerCtx.small .udp 0))
        (init 0 .openMode) (ownAddress ++ [takesPost, takesPost]) ∧
      Runs.run (step (ServerCtx.small .udp 0)) (init 0 .openMode)
        (ownAddress ++ [takesPost, takesPost]) = some s ∧
      (∃ h, s.Holds 0x0A000002 84215045 h) ∧ (∃ h, s.Holds 0x0A000003 101058054 h) ∧
      ReturnPath (ServerCtx.small .udp 0) s := by
  have evaluated : (Runs.run (step (ServerCtx.small .udp 0)) (init 0 .openMode)
      (ownAddress ++ [takesPost, takesPost])).any (fun s =>
        s.holdsAt 0x0A000002 84215045 && s.holdsAt 0x0A000003 101058054) = true := by
    decide
  obtain ⟨s, ran, held⟩ := (Option.any_eq_true _ _).mp evaluated
  obtain ⟨first, second⟩ := (Bool.and_eq_true_iff.mp held).imp holdsAt_iff.mp holdsAt_iff.mp
  have fair : Runs.Along (step (ServerCtx.small .udp 0)) (SendsOwnAddress (ServerCtx.small .udp 0))
      (init 0 .openMode) (ownAddress ++ [takesPost, takesPost]) :=
    Runs.along_of_check sendsOwnAddress_of_check (by decide +kernel)
  exact ⟨s, fair, ran, first, second, returnPath_of_own_addresses fair ran⟩

end Rustnies.Server
