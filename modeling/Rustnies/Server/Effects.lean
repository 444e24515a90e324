import Rustnies.Server.Loop
import Mathlib.Logic.Relation

/-! # What a step of the server can do

A step moves tasks and handles, adds a session with its task, or takes sessions
out. `Evolves` says this of the tables once, as sequences of single moves, and
`step_evolves` is the only place where the operations are unfolded for it: an
invariant of the tables follows from what each move keeps.
-/

namespace Rustnies

variable {σ : Type}

/-- What the steps in view may do: learn an address, take a turn of a task, admit a
    key, and stop the server or change its peers. -/
structure Scope where
  learns : Prop
  turns : Prop
  admits : Bytes → Prop
  governs : Prop

/-- Every step. -/
def Scope.any : Scope := ⟨True, True, fun _ => True, True⟩

/-- Every step but those that learn. -/
def Scope.unlearning : Scope := { Scope.any with learns := False }

/-- The steps that are no turns. -/
def Scope.idle : Scope := { Scope.any with turns := False }

/-- One change of a task; a turn is taken only where that is allowed. -/
inductive TaskMove (ctx : ServerCtx σ) (scope : Scope) : Task σ → Task σ → Prop where
  | release (t : Task σ) : TaskMove ctx scope t { t with held := false }
  | signal (t : Task σ) : TaskMove ctx scope t { t with evictRx := t.evictRx + 1 }
  /-- Only a datagram server hands a message over. -/
  | handed (udp : ctx.carrier = .udp) (t : Task σ) (message : Bytes × SocketAddr) :
      TaskMove ctx scope t { t with udpRx := t.udpRx ++ [message], handed := t.handed ++ [message] }
  | routed (t : Task σ) (packet : Bytes) :
      TaskMove ctx scope t { t with tunRx := t.tunRx ++ [packet], routed := t.routed ++ [packet] }
  | turn (allowed : scope.turns) {t t' : Task σ} (env : Env) (branch : Branch)
      (turned : t.turn env branch = some t') : TaskMove ctx scope t t'
  | ended (t : Task σ) (done : t.running = false) : TaskMove ctx scope t { t with closed := true }

abbrev TaskMoves (ctx : ServerCtx σ) (scope : Scope) : Task σ → Task σ → Prop :=
  Relation.ReflTransGen (TaskMove ctx scope)

/-- One change of a handle; an address is learned only where that is allowed. -/
inductive HandleMove (scope : Scope) : ClientHandle → ClientHandle → Prop where
  | forwarded (h : ClientHandle) (now : Instant) : HandleMove scope h
      { h with lastForwarded := now }
  | warned (h : ClientHandle) (src : Ipv4Addr) :
      HandleMove scope h { h with warnedImplausible := insert src h.warnedImplausible }
  | roamed (h : ClientHandle) (addr : SocketAddr) (now : Instant) :
      HandleMove scope h { h with
        currentAddr := addr
        roamCount := Tunnel.saturatingSucc h.roamCount
        lastRoam := some now }
  | learned (allowed : scope.learns) (h : ClientHandle) (src : Ipv4Addr) :
      HandleMove scope h { h with tunIps := insert src h.tunIps }

abbrev HandleMoves (scope : Scope) : ClientHandle → ClientHandle → Prop :=
  Relation.ReflTransGen (HandleMove scope)

theorem HandleMoves.task {scope : Scope} {h h' : ClientHandle} (moves : HandleMoves scope h h') :
    h'.task = h.task := by
  induction moves with
  | refl => rfl
  | tail _ move ih =>
      rw [← ih]
      cases move <;> rfl

theorem HandleMoves.peerKey {scope : Scope} {h h' : ClientHandle} (moves : HandleMoves scope h h') :
    h'.peerKey = h.peerKey := by
  induction moves with
  | refl => rfl
  | tail _ move ih =>
      rw [← ih]
      cases move <;> rfl

theorem HandleMoves.pubRouteKeystream {scope : Scope} {h h' : ClientHandle}
    (moves : HandleMoves scope h h') :
    h'.pubRouteKeystream = h.pubRouteKeystream := by
  induction moves with
  | refl => rfl
  | tail _ move ih =>
      rw [← ih]
      cases move <;> rfl

theorem HandleMoves.tunIps {scope : Scope} {h h' : ClientHandle} (moves : HandleMoves scope h h')
    (keeps : ¬ scope.learns) : h'.tunIps = h.tunIps := by
  induction moves with
  | refl => rfl
  | tail _ move ih =>
      rw [← ih]
      cases move with
      | learned allowed => exact absurd allowed keeps
      | _ => rfl

/-! ## Turns of a task -/

namespace Task

/-- What a turn leaves alone. -/
structure Same (t t' : Task σ) : Prop where
  cfg : t'.cfg = t.cfg
  sessionId : t'.sessionId = t.sessionId
  carrier : t'.carrier = t.carrier
  held : t'.held = t.held
  closed : t'.closed = t.closed
  handed : t'.handed = t.handed
  routed : t'.routed = t.routed

theorem poll_same {t mid : Task σ} {branch : Branch} {event : Event}
    (polled : t.poll branch = some (event, mid)) :
    Same t mid ∧ mid.tunnel = t.tunnel ∧ (mid.evictRx = t.evictRx ∨ event = .evict) ∧
      mid.panicked = t.panicked := by
  have whole : Same t t ∧ t.tunnel = t.tunnel ∧ (t.evictRx = t.evictRx ∨ event = .evict) ∧
      t.panicked = t.panicked := ⟨⟨rfl, rfl, rfl, rfl, rfl, rfl, rfl⟩, rfl, .inl rfl, rfl⟩
  cases branch with
  | tun =>
      simp only [poll] at polled
      cases queue : t.tunRx with
      | nil =>
          simp only [queue, Option.ite_none_left_eq_some, Option.some.injEq,
            Prod.mk.injEq] at polled
          rw [← polled.2.2]
          exact whole
      | cons packet rest =>
          simp only [queue, Option.some.injEq, Prod.mk.injEq] at polled
          rw [← polled.2]
          exact ⟨⟨rfl, rfl, rfl, rfl, rfl, rfl, rfl⟩, rfl, .inl rfl, rfl⟩
  | udp =>
      simp only [poll] at polled
      cases queue : t.udpRx with
      | nil =>
          simp only [queue, Option.ite_none_left_eq_some, Option.some.injEq,
            Prod.mk.injEq] at polled
          rw [← polled.2.2]
          exact whole
      | cons message rest =>
          simp only [queue, Option.some.injEq, Prod.mk.injEq] at polled
          rw [← polled.2]
          exact ⟨⟨rfl, rfl, rfl, rfl, rfl, rfl, rfl⟩, rfl, .inl rfl, rfl⟩
  | evict =>
      simp only [poll, Option.ite_none_right_eq_some, Option.some.injEq, Prod.mk.injEq] at polled
      rw [← polled.2.2]
      exact ⟨⟨rfl, rfl, rfl, rfl, rfl, rfl, rfl⟩, rfl, .inr polled.2.1.symm, rfl⟩
  | pacerRetry =>
      simp only [poll, Option.ite_none_right_eq_some, Option.some.injEq, Prod.mk.injEq] at polled
      rw [← polled.2.2]
      exact whole
  | _ =>
      simp only [poll, Option.some.injEq, Prod.mk.injEq] at polled
      rw [← polled.2]
      exact whole

/-- A turn polls a branch and gives its event to the tunnel; a panic ends the task. -/
theorem turn_cases {t t' : Task σ} {env : Env} {branch : Branch}
    (turned : t.turn env branch = some t') :
    t.running = true ∧ ∃ event mid, t.poll branch = some (event, mid) ∧
      ((∃ tunnel, t.tunnel.step t.cfg (env, event) = some tunnel ∧
        t' = { mid with tunnel := tunnel }) ∨
        (t.tunnel.step t.cfg (env, event) = none ∧ t' = { mid with panicked := true })) := by
  simp only [turn, Option.ite_none_right_eq_some, Option.map_eq_some_iff] at turned
  obtain ⟨running, ⟨event, mid⟩, polled, rfl⟩ := turned
  obtain ⟨same, tunnel, -⟩ := poll_same polled
  refine ⟨running, event, mid, polled, ?_⟩
  cases stepped : t.tunnel.step t.cfg (env, event) with
  | some tunnel' =>
      refine .inl ⟨tunnel', rfl, ?_⟩
      simp only [tunnel, same.cfg, stepped]
  | none =>
      refine .inr ⟨rfl, ?_⟩
      simp only [tunnel, same.cfg, stepped]

theorem turn_same {t t' : Task σ} {env : Env} {branch : Branch}
    (turned : t.turn env branch = some t') :
    Same t t' := by
  obtain ⟨-, event, mid, polled, ⟨tunnel, -, rfl⟩ | ⟨-, rfl⟩⟩ := turn_cases turned
  · obtain ⟨⟨cfg, sessionId, carrier, held, closed, handed, routed⟩, -⟩ := poll_same polled
    exact ⟨cfg, sessionId, carrier, held, closed, handed, routed⟩
  · obtain ⟨⟨cfg, sessionId, carrier, held, closed, handed, routed⟩, -⟩ := poll_same polled
    exact ⟨cfg, sessionId, carrier, held, closed, handed, routed⟩

end Task

theorem TaskMoves.identity {ctx : ServerCtx σ} {scope : Scope} {t t' : Task σ}
    (moves : TaskMoves ctx scope t t') :
    t'.cfg = t.cfg ∧ t'.sessionId = t.sessionId ∧ t'.carrier = t.carrier := by
  induction moves with
  | refl => exact ⟨rfl, rfl, rfl⟩
  | tail _ move ih =>
      rw [← ih.1, ← ih.2.1, ← ih.2.2]
      cases move with
      | turn _ env branch turned =>
          have same := Task.turn_same turned
          exact ⟨same.cfg, same.sessionId, same.carrier⟩
      | _ => exact ⟨rfl, rfl, rfl⟩

theorem TaskMoves.released {ctx : ServerCtx σ} {scope : Scope} {t t' : Task σ}
    (moves : TaskMoves ctx scope t t') :
    (t.held = false → t'.held = false) ∧ (t.closed = true → t'.closed = true) := by
  induction moves with
  | refl => exact ⟨id, id⟩
  | tail _ move ih =>
      cases move with
      | turn _ env branch turned =>
          have same := Task.turn_same turned
          exact ⟨fun was => same.held.trans (ih.1 was), fun was => same.closed.trans (ih.2 was)⟩
      | release => exact ⟨fun _ => rfl, ih.2⟩
      | ended => exact ⟨ih.1, fun _ => rfl⟩
      | _ => exact ih

theorem TaskMoves.tunnel {ctx : ServerCtx σ} {scope : Scope} {t t' : Task σ}
    (moves : TaskMoves ctx scope t t') (still : ¬ scope.turns) :
    t'.tunnel = t.tunnel ∧ t'.panicked = t.panicked := by
  induction moves with
  | refl => exact ⟨rfl, rfl⟩
  | tail _ move ih =>
      cases move with
      | turn allowed => exact absurd allowed still
      | _ => exact ih

/-! ## Evolution of the tables -/

/-- A new session: its id is not the reserved one, and the keystream that the dispatcher
    keeps for it comes from the seed of the task's layers. -/
structure Opens (ctx : ServerCtx σ) (sid : SessionId) (h : ClientHandle) (t : Task σ) : Prop where
  named : sid ≠ 0
  keyed : ∃ seed, t.cfg.obfuscation = ctx.obfStack.init ctx.deriveKeystream seed ∧
    h.pubRouteKeystream = extractHeaderXorKeystream ctx seed t.cfg.codec.maxHeaderLen

theorem Opens.moves {ctx : ServerCtx σ} {scope : Scope} {sid : SessionId} {h h' : ClientHandle}
    {t t' : Task σ} (opens : Opens ctx sid h t) (handle : HandleMoves scope h h')
    (task : TaskMoves ctx scope t t') :
    Opens ctx sid h' t' where
  named := opens.named
  keyed := by
    rw [task.identity.1, HandleMoves.pubRouteKeystream handle]
    exact opens.keyed

/-- What steps can do to the tasks and the sessions. -/
structure Evolves (ctx : ServerCtx σ) (scope : Scope) (s s' : Server σ) : Prop where
  tasks : ∀ {i : Nat} {t : Task σ}, s.tasks[i]? = some t → ∃ t', s'.tasks[i]? = some t' ∧
    TaskMoves ctx scope t t'
  spawned : ∀ {i : Nat} {t' : Task σ}, s.tasks.length ≤ i → s'.tasks[i]? = some t' →
    ∃ env carrier resolved established,
      TaskMoves ctx scope (Server.newTask ctx env carrier resolved established) t'
  sessions : ∀ {sid : SessionId} {h' : ClientHandle}, s'.sessions.lookup sid = some h' →
    (∃ h, s.sessions.lookup sid = some h ∧ HandleMoves scope h h') ∨
    (∃ h t', scope.admits h'.peerKey ∧ h.tunIps = ∅ ∧ HandleMoves scope h h' ∧
      s.tasks.length ≤ h'.task ∧ s'.tasks[h'.task]? = some t' ∧ t'.sessionId = sid ∧
      Opens ctx sid h t')
  governed : ¬ scope.governs → s'.stopped = s.stopped ∧ s'.peerAuth = s.peerAuth

namespace Evolves

variable {ctx : ServerCtx σ} {scope : Scope} {s s' s'' : Server σ}

theorem length_le (evolves : Evolves ctx scope s s') : s.tasks.length ≤ s'.tasks.length := by
  by_contra shorter
  have inside : s'.tasks.length < s.tasks.length := Nat.lt_of_not_le shorter
  obtain ⟨t', found, -⟩ := evolves.tasks (List.getElem?_eq_getElem inside)
  rw [List.getElem?_eq_none (Nat.le_refl _)] at found
  cases found

theorem refl (s : Server σ) : Evolves ctx scope s s where
  tasks found := ⟨_, found, .refl⟩
  spawned outside found := by
    rw [List.getElem?_eq_none outside] at found
    cases found
  sessions found := .inl ⟨_, found, .refl⟩
  governed _ := ⟨rfl, rfl⟩

theorem trans (first : Evolves ctx scope s s') (second : Evolves ctx scope s' s'') :
    Evolves ctx scope s s'' where
  tasks found := by
    obtain ⟨t', found', moves⟩ := first.tasks found
    obtain ⟨t'', found'', moves'⟩ := second.tasks found'
    exact ⟨t'', found'', moves.trans moves'⟩
  spawned {i t''} outside found := by
    rcases Nat.lt_or_ge i s'.tasks.length with inside | beyond
    · obtain ⟨t', found', moves'⟩ := second.tasks (List.getElem?_eq_getElem inside)
      obtain ⟨env, carrier, resolved, established, moves⟩ :=
        first.spawned outside (List.getElem?_eq_getElem inside)
      cases found'.symm.trans found
      exact ⟨env, carrier, resolved, established, moves.trans moves'⟩
    · exact second.spawned beyond found
  sessions {sid h''} found := by
    rcases second.sessions found with ⟨h', found', moves'⟩ | ⟨h, t', key, none, moves', fresh,
      isTask, owned, opens⟩
    · rcases first.sessions found' with ⟨h, found₀, moves⟩ | ⟨h, t', key, none, moves,
        fresh, isTask, owned, opens⟩
      · exact .inl ⟨h, found₀, moves.trans moves'⟩
      · have task := HandleMoves.task moves'
        obtain ⟨t'', found'', later⟩ := second.tasks isTask
        refine .inr ⟨h, t'', ?_, none, moves.trans moves', ?_, ?_, ?_, opens.moves .refl later⟩
        · rw [HandleMoves.peerKey moves']
          exact key
        · rw [task]
          exact fresh
        · rw [task]
          exact found''
        · rw [later.identity.2.1]
          exact owned
    · exact .inr ⟨h, t', key, none, moves', first.length_le.trans fresh, isTask, owned, opens⟩
  governed calm := by
    obtain ⟨stopped, peers⟩ := first.governed calm
    obtain ⟨stopped', peers'⟩ := second.governed calm
    exact ⟨stopped'.trans stopped, peers'.trans peers⟩

theorem of_same (tasks : s'.tasks = s.tasks) (sessions : s'.sessions = s.sessions)
    (governed : ¬ scope.governs → s'.stopped = s.stopped ∧ s'.peerAuth = s.peerAuth) :
    Evolves ctx scope s s' := by
  have here : Evolves ctx scope s s := refl s
  refine ⟨?_, ?_, ?_, governed⟩
  · rw [tasks]
    exact here.tasks
  · rw [tasks]
    exact here.spawned
  · rw [tasks, sessions]
    exact here.sessions

theorem updateTask {i : Nat} {f : Task σ → Task σ}
    (moves : ∀ t, s.tasks[i]? = some t → TaskMoves ctx scope t (f t)) :
    Evolves ctx scope s (s.updateTask i f) where
  tasks {j t} found := by
    simp only [Server.updateTask, List.getElem?_modify, found]
    by_cases here : i = j
    · subst here
      exact ⟨f t, by simp, moves t found⟩
    · exact ⟨t, by simp [here], .refl⟩
  spawned {j t'} outside found := by
    have none : (s.updateTask i f).tasks[j]? = none :=
      List.getElem?_eq_none (by simpa [Server.updateTask] using outside)
    cases none.symm.trans found
  sessions found := .inl ⟨_, found, .refl⟩
  governed _ := ⟨rfl, rfl⟩

theorem setHandle {sid : SessionId} {h h' : ClientHandle} (found : s.sessions.lookup sid = some h)
    (moves : HandleMoves scope h h') : Evolves ctx scope s (s.setHandle sid h') where
  tasks found := ⟨_, found, .refl⟩
  spawned outside found := by
    rw [Server.setHandle, List.getElem?_eq_none outside] at found
    cases found
  sessions {sid' h''} found' := by
    simp only [Server.setHandle] at found'
    by_cases same : sid' = sid
    · subst same
      rw [AList.lookup_insert] at found'
      cases found'
      exact .inl ⟨h, found, moves⟩
    · rw [AList.lookup_insert_ne same] at found'
      exact .inl ⟨h'', found', .refl⟩
  governed _ := ⟨rfl, rfl⟩

theorem of_sublookup (tasks : s'.tasks = s.tasks)
    (fewer : ∀ {sid h}, s'.sessions.lookup sid = some h → s.sessions.lookup sid = some h)
    (governed : ¬ scope.governs → s'.stopped = s.stopped ∧ s'.peerAuth = s.peerAuth) :
    Evolves ctx scope s s' := by
  have here : Evolves ctx scope s s := refl s
  refine ⟨?_, ?_, fun found => .inl ⟨_, fewer found, .refl⟩, governed⟩
  · rw [tasks]
    exact here.tasks
  · rw [tasks]
    exact here.spawned

end Evolves

/-! ## The operations -/

namespace Server

variable (ctx : ServerCtx σ) (scope : Scope) (s : Server σ)

theorem releaseTask_evolves (i : Nat) : Evolves ctx scope s (s.releaseTask i) :=
  .updateTask fun t _ => .single (.release t)

theorem signalEvict_evolves (i : Nat) : Evolves ctx scope s (s.signalEvict i) := by
  refine .updateTask fun t _ => ?_
  by_cases ended : t.closed = true
  · rw [if_pos ended]
  · rw [if_neg ended]
    exact .single (.signal t)

theorem signalAll_evolves (victims : List (Sigma fun _ : SessionId => ClientHandle)) :
    Evolves ctx scope s (s.signalAll victims) := by
  induction victims generalizing s with
  | nil => exact .refl s
  | cons e victims ih => exact (signalEvict_evolves ctx scope s _).trans (ih _)

theorem removeSession_evolves (sid : SessionId) : Evolves ctx scope s (s.removeSession sid) := by
  unfold removeSession
  cases found : s.sessions.lookup sid with
  | none => exact .refl s
  | some h =>
      refine (releaseTask_evolves ctx scope s h.task).trans
        (.of_sublookup rfl (fun {sid' h'} found' => ?_) fun _ => ⟨rfl, rfl⟩)
      by_cases same : sid' = sid
      · subst same
        rw [AList.lookup_erase] at found'
        cases found'
      · rwa [AList.lookup_erase_ne same] at found'

theorem evictOldestPeerSession_evolves (order : IterOrder) (peerKey : Bytes) (max : UInt8) :
    Evolves ctx scope s (s.evictOldestPeerSession order peerKey max) := by
  unfold evictOldestPeerSession
  cases s.capVictim order peerKey max with
  | none => exact .refl s
  | some sid =>
      have removed : ∀ s : Server σ, Evolves ctx scope s
          { s.removeSession sid with capEvicted := s.capEvicted ++ [peerKey] } := fun s =>
        (removeSession_evolves ctx scope s sid).trans (.of_same rfl rfl fun _ => ⟨rfl, rfl⟩)
      cases found : s.sessions.lookup sid with
      | none => simpa only [found] using removed s
      | some h =>
          simpa only [found] using (signalEvict_evolves ctx scope s h.task).trans (removed _)

theorem spawnClient_evolves (env : ServerEnv) (carrier : SessionCarrier)
    (resolved : ResolvedProfile) (established : SessionEstablished UInt8) {keystream : Option Bytes}
    (admitted : scope.admits established.peerStatic) (named : established.sessionId ≠ 0)
    (extracted : keystream =
      extractHeaderXorKeystream ctx established.handshakeHash resolved.codec.maxHeaderLen) :
    Evolves ctx scope s (s.spawnClient ctx env carrier resolved established keystream) := by
  have isNew : (s.tasks ++ [newTask ctx env carrier resolved established])[s.tasks.length]? =
      some (newTask ctx env carrier resolved established) := by simp
  have appended : Evolves ctx scope s
      { s with tasks := s.tasks ++ [newTask ctx env carrier resolved established] } := by
    refine ⟨fun {i t} found => ⟨t, ?_, .refl⟩, fun {i t'} outside found => ?_,
      fun found => .inl ⟨_, found, .refl⟩, fun _ => ⟨rfl, rfl⟩⟩
    · rw [List.getElem?_append_left (List.getElem?_eq_some_iff.mp found).1]
      exact found
    · rw [List.getElem?_append_right outside, List.getElem?_singleton] at found
      split at found
      · cases found
        exact ⟨env, carrier, resolved, established, .refl⟩
      · cases found
  have removed := removeSession_evolves ctx scope
    { s with tasks := s.tasks ++ [newTask ctx env carrier resolved established] }
      established.sessionId
  have both := appended.trans removed
  refine ⟨both.tasks, both.spawned, fun {sid h'} found => ?_, both.governed⟩
  simp only [spawnClient, insertSession] at found
  by_cases same : sid = established.sessionId
  · subst same
    rw [AList.lookup_insert] at found
    cases found
    obtain ⟨t', isTask, moves⟩ := removed.tasks isNew
    refine .inr ⟨_, t', admitted, rfl, .refl, Nat.le_refl _, isTask, moves.identity.2.1, ?_⟩
    exact Opens.moves ⟨named, established.handshakeHash, rfl, extracted⟩ .refl moves
  · rw [AList.lookup_insert_ne same] at found
    exact .inl ⟨h', found, .refl⟩

theorem acceptHandshake_evolves (env : ServerEnv) (msg1 : Bytes) (carrier : SessionCarrier)
    (established : SessionEstablished UInt8) (admitted : scope.admits established.peerStatic)
    (named : established.sessionId ≠ 0) :
    Evolves ctx scope s (s.acceptHandshake ctx env msg1 carrier established).2 := by
  have evicted := evictOldestPeerSession_evolves ctx scope s env.order established.peerStatic
    ctx.maxSessionsPerPeer
  simp only [acceptHandshake]
  split
  · exact evicted
  · exact (evicted.trans
      (spawnClient_evolves ctx scope _ env carrier _ established admitted named rfl)).trans
      (.of_same rfl rfl fun _ => ⟨rfl, rfl⟩)

/-- The static key that a datagram carries as a message 1. -/
def readsAs (datagram : Bytes) : Option Bytes :=
  (readHello ctx.prim ctx.serverKp ctx.profile ctx.obfStack datagram).map fun hello =>
    hello.1.peerStatic

/-- A key that the peers of the server let in. -/
def Admits (key : Bytes) : Prop := s.peerAuth.isOpenMode = true ∨ (s.peerAuth.check key).1 = true

variable {s} in
theorem readsAs_of_respond {env : ServerEnv} {msg1 : Bytes} {source : SocketAddr}
    {established : SessionEstablished UInt8} {wire : Bytes}
    (answered : s.respond ctx env msg1 source = some (established, wire)) :
    readsAs ctx msg1 = some established.peerStatic := by
  obtain ⟨hello, hs, label, read, -, key, -⟩ := respondMessage1_some answered
  rw [readsAs, read, key]
  rfl

variable {s} in
theorem admits_of_respond {env : ServerEnv} {msg1 : Bytes} {source : SocketAddr}
    {established : SessionEstablished UInt8} {wire : Bytes}
    (answered : s.respond ctx env msg1 source = some (established, wire)) :
    s.Admits established.peerStatic := by
  obtain ⟨hello, hs, label, -, authorized, key, -⟩ := respondMessage1_some answered
  rw [Admits, key]
  cases isOpen : s.peerAuth.isOpenMode with
  | true => exact .inl rfl
  | false =>
      simp only [isOpen, Bool.false_eq_true, if_false, authorize,
        Option.ite_none_right_eq_some] at authorized
      exact .inr authorized.1

variable {s} in
theorem sessionId_of_respond {env : ServerEnv} {msg1 : Bytes} {source : SocketAddr}
    {established : SessionEstablished UInt8} {wire : Bytes}
    (answered : s.respond ctx env msg1 source = some (established, wire)) :
    established.sessionId ≠ 0 := by
  obtain ⟨-, -, -, -, -, -, -, -, named⟩ := respondMessage1_some answered
  rw [named]
  exact sessionIdFromHash_ne_zero _

theorem handleHandshake_evolves (env : ServerEnv) (msg1 : Bytes) (source : SocketAddr)
    (carrier : SessionCarrier)
    (admitted : ∀ key, readsAs ctx msg1 = some key → s.Admits key → scope.admits key) :
    Evolves ctx scope s (s.handleHandshake ctx env msg1 source carrier).2 := by
  have probed : Evolves ctx scope s { s with probes := s.probes ++ [msg1] } :=
    .of_same rfl rfl fun _ => ⟨rfl, rfl⟩
  unfold handleHandshake
  cases answered : s.respond ctx env msg1 source with
  | none => exact probed
  | some answer =>
      simp only
      split
      · exact probed.trans (acceptHandshake_evolves ctx scope _ env msg1 carrier answer.1
          (admitted _ (readsAs_of_respond ctx answered) (admits_of_respond ctx answered))
          (sessionId_of_respond ctx answered))
      · exact probed

theorem forward_evolves {s' : Server σ} (udp : ctx.carrier = .udp) {now : Instant}
    {datagram : Bytes} {source : SocketAddr} {sid : SessionId}
    (forwarded : s.forward now datagram source sid = some s') :
    Evolves ctx scope s s' := by
  unfold forward at forwarded
  cases found : s.sessions.lookup sid with
  | none => simp [found] at forwarded
  | some h =>
      cases isTask : s.tasks[h.task]? with
      | none => simp [found, isTask] at forwarded
      | some t =>
          simp only [found, isTask, Option.ite_none_left_eq_some, Option.some.injEq] at forwarded
          rw [← forwarded.2]
          exact (Evolves.setHandle found (.single (.forwarded h now))).trans
            (.updateTask fun t _ => .single (.handed udp t (datagram, source)))

theorem dispatchDatagram_evolves (udp : ctx.carrier = .udp) (env : ServerEnv) (datagram : Bytes)
    (source : SocketAddr)
    (admitted : ∀ key, readsAs ctx datagram = some key → s.Admits key → scope.admits key) :
    Evolves ctx scope s (s.dispatchDatagram ctx env datagram source) := by
  unfold dispatchDatagram
  have limited : Evolves ctx scope s
      { s with probeLimiter := (s.probeLimiter.allow env.now source).2 } :=
      .of_same rfl rfl fun _ => ⟨rfl, rfl⟩
  have handshake := handleHandshake_evolves ctx scope
    { s with probeLimiter := (s.probeLimiter.allow env.now source).2 } env datagram source
      .shared admitted
  simp only
  cases routed : (s.peekRoutedSession env.order ctx.profile.handshakeTransport datagram).bind
      (s.forward env.now datagram source) with
  | some s' =>
      obtain ⟨sid, -, forwarded⟩ := Option.bind_eq_some_iff.mp routed
      exact forward_evolves ctx scope s udp forwarded
  | none =>
      simp only
      split
      · exact limited
      · cases answered : handleHandshake ctx env
            { s with probeLimiter := (s.probeLimiter.allow env.now source).2 } datagram source
              .shared with
        | mk accepted after =>
            rw [answered] at handshake
            cases accepted with
            | true => exact limited.trans handshake
            | false =>
                refine (limited.trans handshake).trans ?_
                simp only
                cases fallback : (after.addrFallback source).bind
                  (after.forward env.now datagram source) with
                | none => exact .refl after
                | some s' =>
                    obtain ⟨sid, -, forwarded⟩ := Option.bind_eq_some_iff.mp fallback
                    exact forward_evolves ctx scope after udp forwarded

theorem pushTun_evolves (i : Nat) (packet : Bytes) : Evolves ctx scope s (s.pushTun i packet) :=
  .updateTask fun t _ => .single (.routed t packet)

theorem routeTunPacket_evolves (env : ServerEnv) (packet : Bytes) :
    Evolves ctx scope s (s.routeTunPacket env packet) := by
  unfold routeTunPacket
  split
  · exact .refl s
  · simp only
    split
    · exact .refl s
    · split
      · exact pushTun_evolves ctx scope s _ packet
      · exact .of_same rfl rfl fun _ => ⟨rfl, rfl⟩

theorem learnTunIp_evolves (sid : SessionId) (packet : Bytes) (learns : scope.learns) :
    Evolves ctx scope s (s.learnTunIp ctx sid packet) := by
  unfold learnTunIp
  cases ipv4Src packet with
  | none => exact .refl s
  | some src =>
      cases found : s.sessions.lookup sid with
      | none => exact .refl s
      | some h =>
          simp only
          split
          · exact .setHandle found (.single (.learned learns h src))
          · exact .setHandle found (.single (.warned h src))

theorem applyRoam_evolves (env : ServerEnv) (sid : SessionId) (newAddr : SocketAddr) :
    Evolves ctx scope s (s.applyRoam env sid newAddr) := by
  unfold applyRoam
  cases found : s.sessions.lookup sid with
  | none => exact .refl s
  | some h =>
      simp only
      split
      · exact .refl s
      · exact (Evolves.setHandle found (.single (.roamed h newAddr env.now))).trans
          (.of_same rfl rfl fun _ => ⟨rfl, rfl⟩)

theorem handleControlCommand_evolves (command : ControlCommand) :
    Evolves ctx scope s (s.handleControlCommand command) := by
  cases command with
  | listSessions => exact .refl s
  | revoke peerKey => exact signalAll_evolves ctx scope s _
  | disconnect sessionId peerKey =>
      simp only [handleControlCommand, evictSessions]
      split
      · exact signalAll_evolves ctx scope s _
      · exact signalAll_evolves ctx scope s _
      · exact .refl s

theorem sweep_evolves : Evolves ctx scope s s.sweep :=
  .of_sublookup rfl (fun found => (Table.lookup_retain_eq_some.mp found).1) fun _ => ⟨rfl, rfl⟩

theorem shutdown_evolves (governs : scope.governs) : Evolves ctx scope s s.shutdown := by
  refine ⟨fun {i t} found => ⟨{ t with held := false }, ?_, .single (.release t)⟩,
    fun {i t'} outside found => ?_, fun found => ?_, fun calm => absurd governs calm⟩
  · simp only [shutdown, List.getElem?_map, found, Option.map_some]
  · simp only [shutdown, List.getElem?_map, List.getElem?_eq_none outside,
      Option.map_none] at found
    cases found
  · simp only [shutdown, AList.lookup_empty] at found
    cases found

theorem stepTask_evolves {s' : Server σ} {i : Nat} {env : Env} {branch : Branch}
    (stepped : s.stepTask i env branch = some s') (turns : scope.turns) :
    Evolves ctx scope s s' := by
  unfold stepTask at stepped
  cases isTask : s.tasks[i]? with
  | none => simp [isTask] at stepped
  | some t =>
      simp only [isTask, Option.map_eq_some_iff] at stepped
      obtain ⟨t', turned, rfl⟩ := stepped
      have set : s.tasks.set i t' = (s.updateTask i fun _ => t').tasks := by
        rw [updateTask, List.modify_eq_set_getElem?, isTask]
        rfl
      have moved : Evolves ctx scope s (s.updateTask i fun _ => t') :=
        .updateTask fun t₀ found => by
        cases isTask.symm.trans found
        exact .single (.turn turns env branch turned)
      split
      · exact moved.trans (.of_same set rfl fun _ => ⟨rfl, rfl⟩)
      · exact moved.trans (.of_same set rfl fun _ => ⟨rfl, rfl⟩)

/-- The message that a step tries as a message 1: a datagram, or what the dispatcher
    reads from the connection it waits on. -/
def Tries (msg1 : Bytes) : ServerEvent → Prop
  | .dispatcher _ (.datagram data _) => msg1 = data
  | .dispatcher _ (.resume n) =>
      ∃ i c, s.awaiting = .message1 i ∧ s.connections[i]? = some c ∧
        (c.readTurn n).1 = .message msg1
  | _ => False

/-- The events that may stop the server or change its peers. -/
def Governs : ServerEvent → Prop
  | .dispatcher _ (.stop _) => True
  | .dispatcher _ .tunError => True
  | .auth _ => True
  | _ => False

/-- The scope allows what an event may do. -/
structure Allows (e : ServerEvent) : Prop where
  learns : ∀ env, e = .dispatcher env .tunWrite → scope.learns
  turns : ∀ i env branch, e = .task i env branch → scope.turns
  admits : ∀ msg1 key, s.Tries msg1 e → readsAs ctx msg1 =
    some key → s.Admits key → scope.admits key
  governs : Governs e → scope.governs

theorem allows_any (e : ServerEvent) : Allows ctx .any s e :=
  ⟨fun _ _ => trivial, fun _ _ _ _ => trivial, fun _ _ _ _ _ => trivial, fun _ => trivial⟩

theorem resume_evolves {s' : Server σ} {env : ServerEnv} {n : Nat}
    (resumed : s.resume ctx env n = some s')
    (allows : Allows ctx scope s (.dispatcher env (.resume n))) :
    Evolves ctx scope s s' := by
  unfold resume at resumed
  cases awaited : s.awaiting with
  | nothing => simp [awaited] at resumed
  | backpressure i packet =>
      cases isTask : s.tasks[i]? with
      | none => simp [awaited, isTask] at resumed
      | some t =>
          simp only [awaited, isTask] at resumed
          split at resumed
          · cases resumed
            exact .of_same rfl rfl fun _ => ⟨rfl, rfl⟩
          · rw [Option.ite_none_right_eq_some] at resumed
            cases resumed.2
            exact (pushTun_evolves ctx scope s i packet).trans
              (.of_same rfl rfl fun _ => ⟨rfl, rfl⟩)
  | message1 i =>
      cases isConnection : s.connections[i]? with
      | none => simp [awaited, isConnection] at resumed
      | some c =>
          simp only [awaited, isConnection] at resumed
          split at resumed
          · rename_i msg1 read
            cases resumed
            refine Evolves.trans ?_ (handleHandshake_evolves ctx scope _ env _ _ _ fun key =>
              allows.admits msg1 key ⟨i, c, awaited, isConnection, read⟩)
            exact .of_same rfl rfl fun _ => ⟨rfl, rfl⟩
          · cases resumed
            exact .of_same rfl rfl fun _ => ⟨rfl, rfl⟩
          · cases resumed
            exact .of_same rfl rfl fun _ => ⟨rfl, rfl⟩
          · cases resumed

theorem stepDispatcher_evolves {s' : Server σ} {env : ServerEnv} {branch : DispatcherBranch}
    (stepped : s.stepDispatcher ctx env branch = some s')
    (allows : Allows ctx scope s (.dispatcher env branch)) :
    Evolves ctx scope s s' := by
  cases branch with
  | stop requested =>
      cases stepped
      split
      · exact shutdown_evolves ctx scope s (allows.governs trivial)
      · exact .refl s
  | tun packet =>
      cases stepped
      exact routeTunPacket_evolves ctx scope s env packet
  | tunError =>
      cases stepped
      exact shutdown_evolves ctx scope s (allows.governs trivial)
  | tunWrite =>
      simp only [stepDispatcher] at stepped
      split at stepped
      · cases stepped
      · cases stepped
        refine Evolves.trans ?_ ((learnTunIp_evolves ctx scope _ _ _ (allows.learns env rfl)).trans
          (.of_same rfl rfl fun _ => ⟨rfl, rfl⟩))
        exact .of_same rfl rfl fun _ => ⟨rfl, rfl⟩
  | addrChange =>
      simp only [stepDispatcher] at stepped
      split at stepped
      · cases stepped
      · cases stepped
        refine Evolves.trans ?_ (applyRoam_evolves ctx scope _ env _ _)
        exact .of_same rfl rfl fun _ => ⟨rfl, rfl⟩
  | control command =>
      cases stepped
      exact handleControlCommand_evolves ctx scope s command
  | datagram data source =>
      simp only [stepDispatcher, Option.ite_none_right_eq_some] at stepped
      obtain ⟨udp, dispatched⟩ := stepped
      cases dispatched
      exact dispatchDatagram_evolves ctx scope s udp env data source fun key =>
        allows.admits data key rfl
  | connection source =>
      simp only [stepDispatcher, Option.ite_none_right_eq_some] at stepped
      obtain ⟨-, accepted⟩ := stepped
      cases accepted
      exact .of_same rfl rfl fun _ => ⟨rfl, rfl⟩
  | acceptError =>
      cases stepped
      exact .refl s
  | sweep =>
      cases stepped
      exact sweep_evolves ctx scope s
  | resume n => cases stepped

theorem endTask_evolves {s' : Server σ} {i : Nat} (ended : s.endTask i = some s') :
    Evolves ctx scope s s' := by
  unfold endTask at ended
  cases isTask : s.tasks[i]? with
  | none => simp [isTask] at ended
  | some t =>
      simp only [isTask, Option.ite_none_left_eq_some, Option.some.injEq] at ended
      rw [← ended.2]
      refine .updateTask fun t₀ found => ?_
      cases isTask.symm.trans found
      exact .single (.ended t (by simpa using ended.1))

theorem step_dispatcher_cases {s' : Server σ} {env : ServerEnv} {branch : DispatcherBranch}
    (stepped : s.step ctx (.dispatcher env branch) = some s') :
    s.stopped = false ∧
      ((s.awaiting = .nothing ∧ s.stepDispatcher ctx env branch = some s') ∨
        (∃ n, branch = .resume n ∧ s.resume ctx env n = some s')) := by
  simp only [step, Option.ite_none_left_eq_some, Bool.not_eq_true] at stepped
  obtain ⟨going, stepped⟩ := stepped
  refine ⟨going, ?_⟩
  cases awaited : s.awaiting with
  | nothing =>
      rw [awaited] at stepped
      exact .inl ⟨rfl, stepped⟩
  | backpressure i packet =>
      rw [awaited] at stepped
      cases branch with
      | resume n => exact .inr ⟨n, rfl, stepped⟩
      | _ => cases stepped
  | message1 i =>
      rw [awaited] at stepped
      cases branch with
      | resume n => exact .inr ⟨n, rfl, stepped⟩
      | _ => cases stepped

/-- Every step evolves the tables: only a packet that a client sent teaches an address,
    only its own turns move a tunnel, and a new session has the key of the message that
    the step tries, and a key that is let in. -/
theorem step_evolves {s' : Server σ} {e : ServerEvent} (stepped : s.step ctx e = some s')
    (allows : Allows ctx scope s e) : Evolves ctx scope s s' := by
  cases e with
  | dispatcher env branch =>
      obtain ⟨-, ⟨-, branched⟩ | ⟨n, rfl, resumed⟩⟩ :=
        step_dispatcher_cases ctx s stepped
      · exact stepDispatcher_evolves ctx scope s branched allows
      · exact resume_evolves ctx scope s resumed allows
  | task i env branch => exact stepTask_evolves ctx scope s stepped (allows.turns i env branch rfl)
  | taskEnds i => exact endTask_evolves ctx scope s stepped
  | bytes i chunk =>
      simp only [step, Option.ite_none_right_eq_some] at stepped
      cases stepped.2
      exact .of_same rfl rfl fun _ => ⟨rfl, rfl⟩
  | eof i =>
      cases stepped
      exact .of_same rfl rfl fun _ => ⟨rfl, rfl⟩
  | auth change =>
      cases stepped
      exact .of_same rfl rfl fun calm => absurd (allows.governs trivial) calm

theorem run_evolves {s' : Server σ} {events : List ServerEvent}
    (ran : Runs.run (step ctx) s events = some s') : Evolves ctx .any s s' :=
  Runs.invariant (fun mid e _ stepped evolves =>
    evolves.trans (step_evolves ctx .any mid stepped (allows_any ctx mid e))) ran (.refl s)

/-! ## Steps and the turns of one task -/

section Turns

variable {ctx} {s} {s' : Server σ} {i : Nat}

theorem step_idle {e : ServerEvent} (stepped : s.step ctx e = some s')
    (other : ∀ j env branch, e ≠ .task j env branch) :
    Evolves ctx .idle s s' :=
  step_evolves ctx _ s stepped ⟨fun _ _ => trivial, fun j env branch same =>
    absurd same (other j env branch), fun _ _ _ _ _ => trivial, fun _ => trivial⟩

theorem stepTask_other {j : Nat} {env : Env} {branch : Branch}
    (stepped : s.stepTask j env branch = some s') (other : j ≠ i) :
    s'.tasks[i]? = s.tasks[i]? := by
  unfold stepTask at stepped
  split at stepped
  · cases stepped
  · obtain ⟨t', -, rfl⟩ := Option.map_eq_some_iff.mp stepped
    simp only
    split <;> exact List.getElem?_set_ne other

theorem stepTask_own {env : Env} {branch : Branch} (stepped : s.stepTask i env branch = some s') :
    ∃ t t', s.tasks[i]? = some t ∧ t.turn env branch = some t' ∧ s'.tasks[i]? = some t' := by
  unfold stepTask at stepped
  cases isTask : s.tasks[i]? with
  | none => simp [isTask] at stepped
  | some t =>
      simp only [isTask, Option.map_eq_some_iff] at stepped
      obtain ⟨t', turned, rfl⟩ := stepped
      refine ⟨t, t', rfl, turned, ?_⟩
      have inside := (List.getElem?_eq_some_iff.mp isTask).1
      split <;> exact List.getElem?_set_self inside

end Turns

/-! ## Every session has its own task -/

/-- The task of an entry runs the session of the entry's id, so no two entries share
    one. -/
def Owned (s : Server σ) : Prop :=
  ∀ sid h, s.sessions.lookup sid = some h → ∃ t, s.tasks[h.task]? = some t ∧
    t.sessionId = sid

variable {ctx scope s}

theorem Owned.evolves {s' : Server σ} (owned : s.Owned) (evolves : Evolves ctx scope s s') :
    s'.Owned := by
  intro sid h' found
  rcases evolves.sessions found with ⟨h, found₀, moves⟩ | ⟨-, t', -, -, -, -,
    isTask, own, -⟩
  · obtain ⟨t, isTask, own⟩ := owned sid h found₀
    obtain ⟨t', isTask', later⟩ := evolves.tasks isTask
    refine ⟨t', ?_, later.identity.2.1.trans own⟩
    rw [HandleMoves.task moves]
    exact isTask'
  · exact ⟨t', isTask, own⟩

theorem Owned.updateTask (owned : s.Owned) {i : Nat} {f : Task σ → Task σ}
    (keeps : ∀ t, (f t).sessionId = t.sessionId) : (s.updateTask i f).Owned := by
  intro sid h found
  obtain ⟨t, isTask, own⟩ := owned sid h found
  by_cases here : i = h.task
  · exact ⟨f t, by simp [Server.updateTask, here, isTask], (keeps t).trans own⟩
  · exact ⟨t, by simp [Server.updateTask, here, isTask], own⟩

theorem Reachable.owned (reachable : Reachable ctx s) : s.Owned := by
  obtain ⟨now, peerAuth, events, ran⟩ := reachable
  refine Owned.evolves (fun sid h found => ?_) (run_evolves ctx _ ran)
  rw [init, AList.lookup_empty] at found
  cases found

theorem Owned.injective (owned : s.Owned) {sid sid' : SessionId} {h h' : ClientHandle}
    (found : s.sessions.lookup sid = some h) (found' : s.sessions.lookup sid' = some h')
    (same : h.task = h'.task) : sid = sid' := by
  obtain ⟨t, isTask, own⟩ := owned sid h found
  obtain ⟨t', isTask', own'⟩ := owned sid' h' found'
  rw [same, isTask'] at isTask
  cases isTask
  exact own.symm.trans own'

end Server

end Rustnies
