import Rustnies.Server.Replay
import Rustnies.Tunnel.Arrival

/-! # Addresses of sessions

The dispatcher keeps two maps: the sessions under their ids, and a cache from the last
known address of a session to its id. The cache is only a hint. Entries of sessions that
are gone stay in it until the next sweep, and the fallback looks every id up.

A session moves to the source of any datagram that opens under its key: the tunnel
follows it at once, and its signal moves the entries of the dispatcher. Roaming is
decided before the replay window is asked, and only reliable packets are asked about at
all, so a captured datagram moves the session like the original.
-/

namespace Rustnies

variable {σ : Type}

/-! ## One turn of a task -/

namespace Tunnel

variable {cfg : Config σ} {t t' : Tunnel σ} {env : Env} {event : Event}

/-- The tunnel stays at its peer's address, or follows the source of a datagram that opens. -/
def Follows (cfg : Config σ) (t : Tunnel σ) (event : Event) (t' : Tunnel σ) : Prop :=
  (t'.peer = t.peer ∧ t'.roamSignals = t.roamSignals) ∨
    ∃ bytes source packet, event = .datagram bytes source ∧ cfg.supportsRoaming = true ∧
      cfg.openDatagram t.session.id bytes = .ok packet ∧ t'.peer = source ∧
      t'.roamSignals = t.roamSignals ++ if cfg.signalsRoaming then [(t.session.id, source)] else []

theorem step_follows (stepped : t.step cfg (env, event) = some t') : t.Follows cfg event t' := by
  cases exited : t.exit with
  | some exit =>
      rw [step_exited _ (by rw [exited]; rfl)] at stepped
      cases stepped
      exact .inl ⟨rfl, rfl⟩
  | none =>
      rw [step_running _ exited] at stepped
      obtain ⟨peer, signals⟩ := (handleEvent_spec cfg env t event).peer t' stepped
      cases event with
      | datagram bytes source =>
          cases opened : cfg.openDatagram t.session.id bytes with
          | error e =>
              simp only [followed, opened] at peer signals
              exact .inl ⟨peer, signals⟩
          | ok packet =>
              simp only [followed, opened, followPeer] at peer signals
              split at peer
              · rename_i moves
                rw [if_pos moves] at signals
                refine .inr ⟨bytes, source, packet, rfl, moves.2, opened, peer, ?_⟩
                rw [signals]
                split
                · rfl
                · exact (List.append_nil _).symm
              · rename_i stays
                rw [if_neg stays] at signals
                exact .inl ⟨peer, signals⟩
      | _ => exact .inl ⟨peer, signals⟩

end Tunnel

namespace Task

variable {t t' mid : Task σ} {env : Env} {branch : Branch}

theorem poll_datagram {bytes : Bytes} {source : SocketAddr}
    (polled : t.poll branch = some (.datagram bytes source, mid)) :
    branch = .udp ∧ ∃ rest, t.udpRx = (bytes, source) :: rest := by
  cases branch with
  | udp =>
      simp only [poll] at polled
      cases queue : t.udpRx with
      | nil => simp [queue] at polled
      | cons message rest =>
          simp only [queue, Option.some.injEq, Prod.mk.injEq, Event.datagram.injEq] at polled
          obtain ⟨⟨rfl, rfl⟩, -⟩ := polled
          exact ⟨rfl, rest, rfl⟩
  | tun =>
      simp only [poll] at polled
      split at polled <;> simp at polled
  | _ => simp [poll] at polled

theorem poll_udpRx {event : Event} (polled : t.poll branch = some (event, mid)) :
    mid.udpRx.Sublist t.udpRx := by
  cases branch with
  | udp =>
      simp only [poll] at polled
      cases queue : t.udpRx with
      | nil =>
          simp only [queue, Option.ite_none_left_eq_some, Option.some.injEq,
            Prod.mk.injEq] at polled
          rw [← polled.2.2, queue]
      | cons message rest =>
          simp only [queue, Option.some.injEq, Prod.mk.injEq] at polled
          rw [← polled.2]
          exact List.sublist_cons_self _ _
  | tun =>
      simp only [poll] at polled
      split at polled
      · simp only [Option.some.injEq, Prod.mk.injEq] at polled
        rw [← polled.2]
      · simp only [Option.ite_none_left_eq_some, Option.some.injEq, Prod.mk.injEq] at polled
        rw [← polled.2.2]
  | pacerRetry =>
      simp only [poll, Option.ite_none_right_eq_some, Option.some.injEq, Prod.mk.injEq] at polled
      rw [← polled.2.2]
  | evict =>
      simp only [poll, Option.ite_none_right_eq_some, Option.some.injEq, Prod.mk.injEq] at polled
      rw [← polled.2.2]
  | _ =>
      simp only [poll, Option.some.injEq, Prod.mk.injEq] at polled
      rw [← polled.2]

/-- The datagram opens under the keys of the task's session, on a carrier that roams. -/
def Opens (t : Task σ) (bytes : Bytes) : Prop :=
  t.cfg.supportsRoaming = true ∧ ∃ packet,
    t.cfg.openDatagram t.tunnel.session.id bytes = .ok packet

theorem turn_follows (turned : t.turn env branch = some t') :
    (t'.tunnel.peer = t.tunnel.peer ∧ t'.tunnel.roamSignals = t.tunnel.roamSignals) ∨
      ∃ bytes rest, branch = .udp ∧ t.udpRx = (bytes, t'.tunnel.peer) :: rest ∧
      t.Opens bytes ∧ t'.tunnel.roamSignals = t.tunnel.roamSignals ++
          if t.cfg.signalsRoaming then [(t.tunnel.session.id, t'.tunnel.peer)] else [] := by
  obtain ⟨-, event, mid, polled, ⟨tunnel, stepped, rfl⟩ | ⟨-, rfl⟩⟩ := turn_cases turned
  · rcases Tunnel.step_follows stepped with same | ⟨bytes, source, packet, rfl, roams, opened,
      peer, signals⟩
    · exact .inl same
    · obtain ⟨isUdp, rest, queue⟩ := poll_datagram polled
      refine .inr ⟨bytes, rest, isUdp, ?_, ⟨roams, packet, opened⟩, ?_⟩
      · rw [queue, ← peer]
      · rw [signals, ← peer]
  · rw [(poll_same polled).2.1]
    exact .inl ⟨rfl, rfl⟩

theorem turn_opened {bytes : Bytes} {source : SocketAddr} {rest : List (Bytes × SocketAddr)}
    (turned : t.turn env .udp = some t') (queue : t.udpRx = (bytes, source) :: rest)
    (opens : t.Opens bytes) (sound : t'.panicked = false) : t'.tunnel.peer = source := by
  obtain ⟨running, event, mid, polled, outcome⟩ := turn_cases turned
  obtain ⟨roams, packet, opened⟩ := opens
  have going : t.tunnel.exit = none := by
    simp only [Task.running, Bool.and_eq_true, Option.isNone_iff_eq_none] at running
    exact running.1
  simp only [poll, queue, Option.some.injEq, Prod.mk.injEq] at polled
  rcases outcome with ⟨tunnel, stepped, rfl⟩ | ⟨-, rfl⟩
  · rw [← polled.1, Tunnel.step_running _ going] at stepped
    obtain ⟨peer, -⟩ :=
      (Tunnel.handleEvent_spec t.cfg env t.tunnel (.datagram bytes source)).peer tunnel stepped
    simp only [Tunnel.followed, opened, Tunnel.followPeer, roams, and_true] at peer
    split at peer
    · exact peer
    · rename_i stays
      exact peer.trans (not_not.mp stays).symm
  · cases sound

theorem turn_id (turned : t.turn env branch = some t') :
    t'.tunnel.session.id = t.tunnel.session.id := by
  obtain ⟨-, event, mid, polled, ⟨tunnel, stepped, rfl⟩ | ⟨-, rfl⟩⟩ := turn_cases turned
  · exact Tunnel.step_id stepped
  · rw [(poll_same polled).2.1]

/-- What waits in the input channel was put there. -/
def QueueHanded (t : Task σ) : Prop := ∀ message ∈ t.udpRx, message ∈ t.handed

end Task

section Moves

variable {ctx : ServerCtx σ} {scope : Scope} {t t' : Task σ}

theorem TaskMoves.queueHanded (moves : TaskMoves ctx scope t t') (queued : t.QueueHanded) :
    t'.QueueHanded := by
  induction moves with
  | refl => exact queued
  | tail _ move ih =>
      cases move with
      | handed _ t message =>
          intro m member
          rcases List.mem_append.mp member with old | isNew
          · exact List.mem_append_left _ (ih m old)
          · exact List.mem_append_right _ isNew
      | turn _ env branch turned =>
          intro m member
          obtain ⟨-, event, mid, polled, outcome⟩ := Task.turn_cases turned
          rw [(Task.turn_same turned).handed]
          refine ih m ((Task.poll_udpRx polled).subset ?_)
          rcases outcome with ⟨tunnel, -, rfl⟩ | ⟨-, rfl⟩
          · exact member
          · exact member
      | _ => exact ih

theorem TaskMoves.handed (moves : TaskMoves ctx scope t t') :
    t'.tunnel.session.id = t.tunnel.session.id ∧ ∀ message ∈ t.handed,
    message ∈ t'.handed := by
  induction moves with
  | refl => exact ⟨rfl, fun _ member => member⟩
  | tail _ move ih =>
      cases move with
      | handed _ t message =>
          exact ⟨ih.1, fun m member => List.mem_append_left _ (ih.2 m member)⟩
      | turn _ env branch turned =>
          refine ⟨(Task.turn_id turned).trans ih.1, ?_⟩
          rw [(Task.turn_same turned).handed]
          exact ih.2
      | _ => exact ih

end Moves

namespace Server

variable {s s' s'' : Server σ} {sid other : SessionId} {addr newAddr : SocketAddr}

/-! ## The address cache -/

theorem addrFallback_live (fallback : s.addrFallback addr = some sid) :
    ∃ h, s.sessions.lookup sid = some h := by
  obtain ⟨-, live⟩ := Option.filter_eq_some_iff.mp fallback
  exact Option.isSome_iff_exists.mp live

theorem applyRoam_others (env : ServerEnv) (others : other ≠ sid)
    (cached : s.addrIndex.lookup addr = some other) :
    (s.applyRoam env sid newAddr).addrIndex.lookup addr = some other ∨
      (addr = newAddr ∧ (s.applyRoam env sid newAddr).addrIndex.lookup addr = some sid) := by
  unfold applyRoam
  cases found : s.sessions.lookup sid with
  | none => exact .inl cached
  | some h =>
      simp only
      by_cases stays : h.currentAddr = newAddr
      · rw [if_pos stays]
        exact .inl cached
      · rw [if_neg stays]
        by_cases claims : addr = newAddr
        · subst claims
          exact .inr ⟨rfl, AList.lookup_insert _⟩
        · refine .inl ?_
          simp only [AList.lookup_insert_ne claims]
          split
          · rename_i own
            have kept : addr ≠ h.currentAddr := by
              rintro rfl
              exact others (Option.some.inj (cached.symm.trans own))
            rw [AList.lookup_erase_ne kept]
            exact cached
          · exact cached

theorem sweep_addrIndex (cached : s.sweep.addrIndex.lookup addr = some sid) :
    ∃ h, s.sweep.sessions.lookup sid = some h := by
  obtain ⟨-, live⟩ := Table.lookup_retain_eq_some.mp cached
  exact Option.isSome_iff_exists.mp live

/-- In every state of the dispatcher, however it was reached: the fallback gives a session
    of the table, a roam signal takes another session's address only by claiming it, and
    what a sweep leaves in the cache are addresses of sessions of the table. -/
theorem address_cache_sound (ctx : ServerCtx σ) (s : Server σ) :
    (∀ addr sid, s.addrFallback addr = some sid → ∃ h, s.sessions.lookup sid = some h) ∧
      (∀ env sid newAddr rest s', s.addrChangeRx = (sid, newAddr) :: rest →
        s.step ctx (.dispatcher env .addrChange) = some s' →
        ∀ addr other, other ≠ sid → s.addrIndex.lookup addr = some other →
          s'.addrIndex.lookup addr = some other ∨
          (addr = newAddr ∧ s'.addrIndex.lookup addr = some sid)) ∧
      ∀ env s', s.step ctx (.dispatcher env .sweep) = some s' →
        ∀ addr sid, s'.addrIndex.lookup addr = some sid → ∃ h,
        s'.sessions.lookup sid = some h := by
  refine ⟨fun addr sid => addrFallback_live,
    fun env sid newAddr rest s' signals stepped addr other others cached => ?_,
    fun env s' stepped addr sid cached => ?_⟩
  · obtain ⟨-, ⟨-, branched⟩ | ⟨n, resumes, -⟩⟩ := step_dispatcher_cases ctx s stepped
    · simp only [stepDispatcher, signals, Option.some.injEq] at branched
      rw [← branched]
      exact applyRoam_others env others cached
    · cases resumes
  · obtain ⟨-, ⟨-, branched⟩ | ⟨n, resumes, -⟩⟩ := step_dispatcher_cases ctx s stepped
    · cases branched
      exact sweep_addrIndex cached
    · cases resumes

/-! ## Where addresses come from -/

/-- The session has received a datagram from the address that opens under its keys. -/
def Heard (s : Server σ) (sid : SessionId) (addr : SocketAddr) : Prop :=
  ∃ (i : Nat) (t : Task σ) (bytes : Bytes), s.tasks[i]? = some t ∧
    t.tunnel.session.id = sid ∧ (bytes, addr) ∈ t.handed ∧ t.Opens bytes

theorem Heard.evolves {ctx : ServerCtx σ} {scope : Scope} (heard : s.Heard sid addr)
    (evolves : Evolves ctx scope s s') :
    s'.Heard sid addr := by
  obtain ⟨i, t, bytes, isTask, own, received, opens⟩ := heard
  obtain ⟨t', isTask', moves⟩ := evolves.tasks isTask
  obtain ⟨id, handed⟩ := moves.handed
  refine ⟨i, t', bytes, isTask', id.trans own, handed _ received, ?_⟩
  rw [Task.Opens, moves.identity.1, id]
  exact opens

/-- What a step does to the addresses: an entry of either map, or a roam signal, is as
    before, or it is for an address where the session was heard, or a handshake from that
    address was accepted. -/
structure AddrMoves (heard : SessionId → SocketAddr → Prop) (joined : SocketAddr → Prop)
    (s s' : Server σ) : Prop where
  index : ∀ addr sid, s'.addrIndex.lookup addr = some sid →
    s.addrIndex.lookup addr = some sid ∨ heard sid addr ∨ joined addr
  current : ∀ sid h', s'.sessions.lookup sid = some h' →
    (∃ h, s.sessions.lookup sid = some h ∧ h'.currentAddr = h.currentAddr) ∨
    heard sid h'.currentAddr ∨ joined h'.currentAddr
  signals : ∀ sid addr, (sid, addr) ∈ s'.addrChangeRx → (sid, addr) ∈ s.addrChangeRx ∨
    heard sid addr

namespace AddrMoves

variable {heard : SessionId → SocketAddr → Prop} {joined : SocketAddr → Prop}

theorem trans (first : AddrMoves heard joined s s') (second : AddrMoves heard joined s' s'') :
    AddrMoves heard joined s s'' where
  index addr sid cached := by
    rcases second.index addr sid cached with before | moved
    · exact first.index addr sid before
    · exact .inr moved
  current sid h'' found := by
    rcases second.current sid h'' found with ⟨h', found', same⟩ | moved
    · rw [same]
      exact first.current sid h' found'
    · exact .inr moved
  signals sid addr signal := by
    rcases second.signals sid addr signal with before | moved
    · exact first.signals sid addr before
    · exact .inr moved

theorem of_same (sessions : s'.sessions = s.sessions) (addrIndex : s'.addrIndex = s.addrIndex)
    (signals : s'.addrChangeRx = s.addrChangeRx) : AddrMoves heard joined s s' where
  index addr sid cached := .inl (by rwa [← addrIndex])
  current sid h' found := .inl ⟨h', by rwa [← sessions], rfl⟩
  signals sid addr signal := .inl (by rwa [← signals])

theorem of_sublookup
    (fewer : ∀ sid h, s'.sessions.lookup sid = some h → s.sessions.lookup sid = some h)
    (addrIndex : ∀ addr sid, s'.addrIndex.lookup addr = some sid → s.addrIndex.lookup addr =
      some sid) (signals : ∀ signal ∈ s'.addrChangeRx, signal ∈ s.addrChangeRx) :
    AddrMoves heard joined s s' where
  index addr sid cached := .inl (addrIndex addr sid cached)
  current sid h' found := .inl ⟨h', fewer sid h' found, rfl⟩
  signals _ _ signal := .inl (signals _ signal)

theorem setHandle {h h' : ClientHandle} (found : s.sessions.lookup sid = some h)
    (same : h'.currentAddr = h.currentAddr) : AddrMoves heard joined s (s.setHandle sid h') where
  index _ _ cached := .inl cached
  current sid' h'' found' := by
    refine .inl ?_
    by_cases own : sid' = sid
    · subst own
      rw [Server.setHandle, AList.lookup_insert] at found'
      cases found'
      exact ⟨h, found, same⟩
    · rw [Server.setHandle, AList.lookup_insert_ne own] at found'
      exact ⟨h'', found', rfl⟩
  signals _ _ signal := .inl signal

theorem updateTask (s : Server σ) (i : Nat) (f : Task σ → Task σ) :
    AddrMoves heard joined s (s.updateTask i f) :=
  of_same rfl rfl rfl

end AddrMoves

/-! ## The operations -/

section Operations

variable {heard : SessionId → SocketAddr → Prop} {joined : SocketAddr → Prop}
  {ctx : ServerCtx σ}

theorem removeSession_addrs (s : Server σ) (sid : SessionId) :
    AddrMoves heard joined s (s.removeSession sid) := by
  unfold removeSession
  cases s.sessions.lookup sid with
  | none => exact .of_same rfl rfl rfl
  | some h =>
      refine .of_sublookup (fun sid' h' found => ?_) (fun _ _ cached => cached)
        (fun _ signal => signal)
      by_cases same : sid' = sid
      · rw [same, AList.lookup_erase] at found
        cases found
      · rwa [AList.lookup_erase_ne same] at found

theorem evictOldestPeerSession_addrs (s : Server σ) (order : IterOrder) (key : Bytes)
    (max : UInt8) :
    AddrMoves heard joined s (s.evictOldestPeerSession order key max) := by
  cases victim : s.capVictim order key max with
  | none =>
      rw [evictOldestPeerSession_none victim]
      exact .of_same rfl rfl rfl
  | some sid =>
      obtain ⟨h, found, -⟩ := capVictim_spec victim
      rw [evictOldestPeerSession_victim victim found]
      exact ((AddrMoves.updateTask s _ _).trans (removeSession_addrs _ sid)).trans
        (.of_same rfl rfl rfl)

theorem spawnClient_addrs (s : Server σ) (env : ServerEnv) (carrier : SessionCarrier)
    (resolved : ResolvedProfile) {established : SessionEstablished UInt8} (keystream : Option Bytes)
    (joins : joined established.peer) :
    AddrMoves heard joined s (s.spawnClient ctx env carrier resolved established keystream) where
  index addr sid cached := by
    by_cases own : addr = established.peer
    · exact .inr (.inr (own ▸ joins))
    · refine .inl ?_
      simp only [spawnClient, insertSession, AList.lookup_insert_ne own, removeSession] at cached
      split at cached <;> exact cached
  current sid h' found := by
    by_cases own : sid = established.sessionId
    · subst own
      rw [spawnClient, insertSession, AList.lookup_insert] at found
      cases found
      exact .inr (.inr joins)
    · rw [spawnClient, insertSession, AList.lookup_insert_ne own] at found
      exact .inl ⟨h', found, rfl⟩
  signals sid addr signal := by
    refine .inl ?_
    simp only [spawnClient, insertSession, removeSession] at signal
    split at signal <;> exact signal

theorem acceptHandshake_addrs (s : Server σ) (env : ServerEnv) (msg1 : Bytes)
    (carrier : SessionCarrier) {established : SessionEstablished UInt8}
    (joins : s.accepted.length <
      (s.acceptHandshake ctx env msg1 carrier established).2.accepted.length → joined
      established.peer) :
    AddrMoves heard joined s (s.acceptHandshake ctx env msg1 carrier established).2 := by
  have evicted : AddrMoves heard joined s
      (s.evictOldestPeerSession env.order established.peerStatic ctx.maxSessionsPerPeer) :=
    evictOldestPeerSession_addrs s env.order established.peerStatic ctx.maxSessionsPerPeer
  obtain ⟨-, same, -⟩ :=
    evictOldestPeerSession_record s env.order established.peerStatic ctx.maxSessionsPerPeer
  simp only [acceptHandshake] at joins ⊢
  cases resolve : ResolvedProfile.withHandshakeTransport established.selection
    ctx.profile.handshakeTransport with
  | error e => exact evicted
  | ok resolved =>
      simp only [resolve] at joins ⊢
      refine (evicted.trans (spawnClient_addrs _ env carrier resolved _ (joins ?_))).trans
        (.of_same rfl rfl rfl)
      rw [(spawnClient_record ..).accepted, same, List.length_append]
      exact Nat.lt_succ_self _

theorem handleHandshake_addrs (s : Server σ) (env : ServerEnv) (msg1 : Bytes) (source : SocketAddr)
    (carrier : SessionCarrier)
    (joins : s.accepted.length <
      (s.handleHandshake ctx env msg1 source carrier).2.accepted.length → joined source) :
    AddrMoves heard joined s (s.handleHandshake ctx env msg1 source carrier).2 := by
  have probed : AddrMoves heard joined s { s with probes := s.probes ++ [msg1] } :=
    .of_same rfl rfl rfl
  unfold handleHandshake at joins ⊢
  cases answered : s.respond ctx env msg1 source with
  | none => exact probed
  | some answer =>
      obtain ⟨established, wire⟩ := answer
      obtain ⟨-, -, -, -, -, -, -, address, -⟩ := respondMessage1_some answered
      simp only [answered] at joins ⊢
      cases sent : env.sendOk wire source with
      | false => exact probed
      | true =>
          rw [sent, if_pos rfl] at joins
          rw [if_pos rfl]
          exact probed.trans (acceptHandshake_addrs _ env msg1 carrier fun grown =>
            address ▸ joins grown)

theorem forward_addrs {now : Instant} {datagram : Bytes} {source : SocketAddr}
    (forwarded : s.forward now datagram source sid = some s') : AddrMoves heard joined s s' := by
  unfold forward at forwarded
  cases found : s.sessions.lookup sid with
  | none => simp [found] at forwarded
  | some h =>
      cases isTask : s.tasks[h.task]? with
      | none => simp [found, isTask] at forwarded
      | some t =>
          simp only [found, isTask, Option.ite_none_left_eq_some, Option.some.injEq] at forwarded
          rw [← forwarded.2]
          have noted : AddrMoves heard joined s (s.setHandle sid { h with lastForwarded := now }) :=
            .setHandle found rfl
          exact noted.trans (.of_same rfl rfl rfl)

theorem routeTunPacket_addrs (s : Server σ) (env : ServerEnv) (packet : Bytes) :
    AddrMoves heard joined s (s.routeTunPacket env packet) := by
  unfold routeTunPacket
  split
  · exact .of_same rfl rfl rfl
  · simp only
    split
    · exact .of_same rfl rfl rfl
    · split <;> exact .of_same rfl rfl rfl

theorem learnTunIp_addrs (s : Server σ) (sid : SessionId) (packet : Bytes) :
    AddrMoves heard joined s (s.learnTunIp ctx sid packet) := by
  unfold learnTunIp
  cases ipv4Src packet with
  | none => exact .of_same rfl rfl rfl
  | some src =>
      cases found : s.sessions.lookup sid with
      | none => exact .of_same rfl rfl rfl
      | some h =>
          simp only
          split <;> exact .setHandle found rfl

theorem signalAll_addrs (s : Server σ) (victims : List (Sigma fun _ : SessionId => ClientHandle)) :
    AddrMoves heard joined s (s.signalAll victims) := by
  induction victims generalizing s with
  | nil => exact .of_same rfl rfl rfl
  | cons e victims ih => exact (AddrMoves.updateTask s _ _).trans (ih _)

theorem handleControlCommand_addrs (s : Server σ) (command : ControlCommand) :
    AddrMoves heard joined s (s.handleControlCommand command) := by
  cases command with
  | listSessions => exact .of_same rfl rfl rfl
  | revoke peerKey => exact signalAll_addrs s _
  | disconnect sessionId peerKey =>
      simp only [handleControlCommand, evictSessions]
      split
      · exact signalAll_addrs s _
      · exact signalAll_addrs s _
      · exact .of_same rfl rfl rfl

theorem applyRoam_addrs (s : Server σ) (env : ServerEnv) (hears : heard sid newAddr) :
    AddrMoves heard joined s (s.applyRoam env sid newAddr) := by
  unfold applyRoam
  cases found : s.sessions.lookup sid with
  | none => exact .of_same rfl rfl rfl
  | some h =>
      simp only
      split
      · exact .of_same rfl rfl rfl
      · refine ⟨fun addr sid' cached => ?_, fun sid' h' found' => ?_, fun _ _ signal =>
          .inl signal⟩
        · by_cases own : addr = newAddr
          · subst own
            simp only [AList.lookup_insert, Option.some.injEq] at cached
            exact .inr (.inl (cached ▸ hears))
          · refine .inl ?_
            simp only [AList.lookup_insert_ne own] at cached
            split at cached
            · by_cases old : addr = h.currentAddr
              · rw [old, AList.lookup_erase] at cached
                cases cached
              · rwa [AList.lookup_erase_ne old] at cached
            · exact cached
        · by_cases own : sid' = sid
          · subst own
            simp only [Server.setHandle, AList.lookup_insert, Option.some.injEq] at found'
            rw [← found']
            exact .inr (.inl hears)
          · simp only [Server.setHandle, AList.lookup_insert_ne own] at found'
            exact .inl ⟨h', found', rfl⟩

theorem sweep_addrs (s : Server σ) : AddrMoves heard joined s s.sweep :=
  .of_sublookup (fun _ _ found => (Table.lookup_retain_eq_some.mp found).1)
    (fun _ _ cached => (Table.lookup_retain_eq_some.mp cached).1) (fun _ signal => signal)

theorem shutdown_addrs (s : Server σ) : AddrMoves heard joined s s.shutdown := by
  refine .of_sublookup (fun sid h found => ?_) (fun addr sid cached => ?_) (fun signal member => ?_)
  · rw [shutdown, AList.lookup_empty] at found
    cases found
  · rw [shutdown, AList.lookup_empty] at cached
    cases cached
  · cases member

theorem dispatchDatagram_addrs (s : Server σ) (env : ServerEnv) (datagram : Bytes)
    (source : SocketAddr)
    (joins : s.accepted.length <
      (s.dispatchDatagram ctx env datagram source).accepted.length → joined source) :
    AddrMoves heard joined s (s.dispatchDatagram ctx env datagram source) := by
  unfold dispatchDatagram at joins ⊢
  have limited : AddrMoves heard joined s { s with probeLimiter :=
    (s.probeLimiter.allow env.now source).2 } :=
    .of_same rfl rfl rfl
  generalize isLimited : { s with probeLimiter := (s.probeLimiter.allow env.now source).2 } =
    s₁ at limited
  have same : s₁.accepted = s.accepted := by rw [← isLimited]
  simp only [isLimited] at joins ⊢
  cases routed : (s.peekRoutedSession env.order ctx.profile.handshakeTransport datagram).bind
      (s.forward env.now datagram source) with
  | some s' =>
      obtain ⟨sid, -, forwarded⟩ := Option.bind_eq_some_iff.mp routed
      exact forward_addrs forwarded
  | none =>
      refine limited.trans ?_
      simp only [routed] at joins ⊢
      split
      · exact .of_same rfl rfl rfl
      · rename_i tried
        rw [if_neg tried] at joins
        cases answered : s₁.handleHandshake ctx env datagram source .shared with
        | mk accepted after =>
            have handshake : (s₁.accepted.length < after.accepted.length → joined source) →
                AddrMoves heard joined s₁ after := by
              intro joins
              have moved : AddrMoves heard joined s₁
                (s₁.handleHandshake ctx env datagram source .shared).2 :=
                handleHandshake_addrs s₁ env datagram source .shared (by rwa [answered])
              rwa [answered] at moved
            rw [answered, ← same] at joins
            cases accepted with
            | true => exact handshake joins
            | false =>
                simp only at joins ⊢
                cases fallback : (after.addrFallback source).bind
                  (after.forward env.now datagram source) with
                | none =>
                    rw [fallback] at joins
                    exact handshake joins
                | some s' =>
                    obtain ⟨sid, -, forwarded⟩ := Option.bind_eq_some_iff.mp fallback
                    rw [fallback, Option.getD_some, (forward_record forwarded).accepted] at joins
                    exact (handshake joins).trans (forward_addrs forwarded)

/-- The event brings a message 1 from the address. -/
def HandshakeFrom (s : Server σ) (addr : SocketAddr) : ServerEvent → Prop
  | .dispatcher _ (.datagram _ source) => source = addr
  | .dispatcher _ (.resume _) =>
      ∃ i c, s.awaiting = .message1 i ∧ s.connections[i]? = some c ∧ c.peer = addr
  | _ => False

theorem resume_addrs {env : ServerEnv} {n : Nat} (resumed : s.resume ctx env n = some s')
    (joins : ∀ addr, s.HandshakeFrom addr (.dispatcher env (.resume n)) → s.accepted.length <
      s'.accepted.length → joined addr) : AddrMoves heard joined s s' := by
  unfold resume at resumed
  cases awaited : s.awaiting with
  | nothing => simp [awaited] at resumed
  | backpressure i packet =>
      cases isTask : s.tasks[i]? with
      | none => simp [awaited, isTask] at resumed
      | some t =>
          simp only [awaited, isTask] at resumed
          split at resumed
          · cases resumed
            exact .of_same rfl rfl rfl
          · rw [Option.ite_none_right_eq_some] at resumed
            cases resumed.2
            exact .of_same rfl rfl rfl
  | message1 i =>
      cases isConnection : s.connections[i]? with
      | none => simp [awaited, isConnection] at resumed
      | some c =>
          simp only [awaited, isConnection] at resumed
          cases read : (c.readTurn n).1 with
          | message msg1 =>
              simp only [read] at resumed
              cases resumed
              have ready : AddrMoves heard joined s { s with
                connections := s.connections.set i (c.readTurn n).2, awaiting := .nothing } :=
                  .of_same rfl rfl rfl
              have peer : (c.readTurn n).2.peer = c.peer := by
                simp only [Connection.readTurn]
                split
                · rfl
                · split <;> rfl
              refine ready.trans (handleHandshake_addrs _ env msg1 _ _ fun grown => ?_)
              rw [peer]
              exact joins c.peer ⟨i, c, awaited, isConnection, rfl⟩ grown
          | more =>
              simp only [read] at resumed
              cases resumed
              exact .of_same rfl rfl rfl
          | closed =>
              simp only [read] at resumed
              cases resumed
              exact .of_same rfl rfl rfl
          | wait =>
              simp only [read] at resumed
              cases resumed

theorem endTask_addrs {i : Nat} (ended : s.endTask i = some s') : AddrMoves heard joined s s' := by
  unfold endTask at ended
  split at ended
  · cases ended
  · rw [Option.ite_none_left_eq_some] at ended
    cases ended.2
    exact .of_same rfl rfl rfl

end Operations

/-! ## Steps -/

/-- What the tunnels wait for was handed to them, and every roam signal on its way comes
    from a session that was heard there. -/
structure Listens (s : Server σ) : Prop where
  queues : ∀ (i : Nat) (t : Task σ), s.tasks[i]? = some t → t.QueueHanded
  signals : ∀ sid addr, (sid, addr) ∈ s.addrChangeRx → s.Heard sid addr

variable {ctx : ServerCtx σ} {e : ServerEvent}

/-- The address is that of a handshake which the step accepts. -/
def Joins (s s' : Server σ) (e : ServerEvent) (addr : SocketAddr) : Prop :=
  s.HandshakeFrom addr e ∧ s.accepted.length < s'.accepted.length

theorem stepTask_addrs {i : Nat} {env : Env} {branch : Branch} (listens : s.Listens)
    (stepped : s.stepTask i env branch = some s') {joined : SocketAddr → Prop} :
    AddrMoves s.Heard joined s s' := by
  unfold stepTask at stepped
  cases isTask : s.tasks[i]? with
  | none => simp [isTask] at stepped
  | some t =>
      simp only [isTask, Option.map_eq_some_iff] at stepped
      obtain ⟨t', turned, rfl⟩ := stepped
      split
      · exact .of_same rfl rfl rfl
      · refine ⟨fun _ _ cached => .inl cached, fun _ h' found => .inl ⟨h', found, rfl⟩,
          fun sid addr signal => ?_⟩
        rcases List.mem_append.mp signal with before | isNew
        · exact .inl before
        · refine .inr ?_
          rcases Task.turn_follows turned with ⟨-, same⟩ | ⟨bytes, rest, -, queue,
            opens, signals⟩
          · rw [same, List.drop_length] at isNew
            cases isNew
          · rw [signals, List.drop_left] at isNew
            split at isNew
            · rw [List.mem_singleton, Prod.mk.injEq] at isNew
              obtain ⟨rfl, rfl⟩ := isNew
              have handed := listens.queues i t isTask _ (by rw [queue]; exact List.mem_cons_self)
              exact ⟨i, t, bytes, isTask, rfl, handed, opens⟩
            · cases isNew

theorem step_addrs (listens : s.Listens) (stepped : s.step ctx e = some s') :
    AddrMoves s.Heard (s.Joins s' e) s s' := by
  cases e with
  | dispatcher env branch =>
      obtain ⟨-, ⟨-, branched⟩ | ⟨n, rfl, resumed⟩⟩ :=
        step_dispatcher_cases ctx s stepped
      · cases branch with
        | stop requested =>
            cases branched
            split
            · exact shutdown_addrs s
            · exact .of_same rfl rfl rfl
        | tun packet =>
            cases branched
            exact routeTunPacket_addrs s env packet
        | tunError =>
            cases branched
            exact shutdown_addrs s
        | tunWrite =>
            simp only [stepDispatcher] at branched
            split at branched
            · cases branched
            · cases branched
              rename_i post rest posts
              refine (AddrMoves.trans ?_
                (learnTunIp_addrs { s with tunWriteRx := rest } post.sessionId post.packet)).trans
                (.of_same rfl rfl rfl)
              exact .of_same rfl rfl rfl
        | addrChange =>
            simp only [stepDispatcher] at branched
            split at branched
            · cases branched
            · cases branched
              rename_i sid newAddr rest signals
              have hears : s.Heard sid newAddr :=
                listens.signals sid newAddr (by rw [signals]; exact List.mem_cons_self)
              refine AddrMoves.trans ?_ (applyRoam_addrs { s with addrChangeRx := rest } env hears)
              refine .of_sublookup (fun _ _ found => found) (fun _ _ cached => cached)
                fun signal member => ?_
              rw [signals]
              exact List.mem_cons_of_mem _ member
        | control command =>
            cases branched
            exact handleControlCommand_addrs s command
        | datagram data source =>
            simp only [stepDispatcher, Option.ite_none_right_eq_some, Option.some.injEq] at branched
            rw [← branched.2]
            exact dispatchDatagram_addrs s env data source fun grown => ⟨rfl, grown⟩
        | connection source =>
            simp only [stepDispatcher, Option.ite_none_right_eq_some] at branched
            cases branched.2
            exact .of_same rfl rfl rfl
        | acceptError =>
            cases branched
            exact .of_same rfl rfl rfl
        | sweep =>
            cases branched
            exact sweep_addrs s
        | resume n => cases branched
      · exact resume_addrs resumed fun addr hello grown => ⟨hello, grown⟩
  | task i env branch => exact stepTask_addrs listens stepped
  | taskEnds i => exact endTask_addrs stepped
  | bytes i chunk =>
      obtain ⟨-, after⟩ := Option.ite_none_right_eq_some.mp stepped
      cases after
      exact .of_same rfl rfl rfl
  | eof i =>
      cases stepped
      exact .of_same rfl rfl rfl
  | auth change =>
      cases stepped
      exact .of_same rfl rfl rfl

theorem Listens.step (listens : s.Listens) (stepped : s.step ctx e = some s') : s'.Listens := by
  have evolves := step_evolves ctx .any s stepped (allows_any ctx s e)
  refine ⟨fun i t' isTask => ?_, fun sid addr signal => ?_⟩
  · rcases Nat.lt_or_ge i s.tasks.length with inside | beyond
    · obtain ⟨t'', isTask', moves⟩ := evolves.tasks (List.getElem?_eq_getElem inside)
      cases isTask'.symm.trans isTask
      exact moves.queueHanded (listens.queues i _ (List.getElem?_eq_getElem inside))
    · obtain ⟨env, carrier, resolved, established, moves⟩ := evolves.spawned beyond isTask
      exact moves.queueHanded fun message member => by cases member
  · rcases (step_addrs listens stepped).signals sid addr signal with before | hears
    · exact (listens.signals sid addr before).evolves evolves
    · exact hears.evolves evolves

theorem Reachable.listens (reachable : Reachable ctx s) : s.Listens := by
  obtain ⟨now, peerAuth, events, ran⟩ := reachable
  refine Runs.invariant (fun _ _ _ stepped listens => Listens.step listens stepped) ran ⟨?_, ?_⟩
  · intro i t isTask
    cases isTask
  · intro sid addr signal
    cases signal

/-- A step moves the tunnel of a session to an address only when the tunnel takes in a
    datagram from there that opens, and the entries of the dispatcher follow. -/
structure FollowsHeard (s s' : Server σ) (e : ServerEvent) : Prop where
  peers : ∀ (i : Nat) (t t' : Task σ), s.tasks[i]? = some t → s'.tasks[i]? = some t' →
    t'.tunnel.peer ≠ t.tunnel.peer →
    ∃ env bytes rest, e = .task i env .udp ∧ t.udpRx = (bytes, t'.tunnel.peer) :: rest ∧
    t.Opens bytes
  addresses : AddrMoves s.Heard (s.Joins s' e) s s'

theorem step_peers (stepped : s.step ctx e = some s') {i : Nat} {t t' : Task σ}
    (isTask : s.tasks[i]? = some t) (isTask' : s'.tasks[i]? = some t')
    (moved : t'.tunnel.peer ≠ t.tunnel.peer) :
    ∃ env bytes rest, e = .task i env .udp ∧ t.udpRx = (bytes, t'.tunnel.peer) :: rest ∧
    t.Opens bytes := by
  have idle : ¬ Evolves ctx .idle s s' := fun evolves => by
    obtain ⟨t'', found, moves⟩ := evolves.tasks isTask
    cases isTask'.symm.trans found
    exact moved (by rw [(moves.tunnel id).1])
  cases e with
  | task j env branch =>
      by_cases own : j = i
      · subst own
        obtain ⟨t₀, t₁, found, turned, found'⟩ := stepTask_own stepped
        cases isTask.symm.trans found
        cases isTask'.symm.trans found'
        rcases Task.turn_follows turned with ⟨same, -⟩ | ⟨bytes, rest, rfl, queue, opens, -⟩
        · exact absurd same moved
        · exact ⟨env, bytes, rest, rfl, queue, opens⟩
      · rw [stepTask_other stepped own, isTask] at isTask'
        cases isTask'
        exact absurd rfl moved
  | _ => exact absurd (step_idle stepped fun _ _ _ same => by cases same) idle

/-- In every reachable state, the tunnel of a session, its roam signals and its entries at
    the dispatcher move to an address only for a datagram from there that opens under the
    session's keys. A datagram that opens moves the tunnel to its source, whether or not it
    was received before. A tunnel of a client, which no server holds, moves in the same way. -/
theorem addresses_follow_opened (reachable : Reachable ctx s) (stepped : s.step ctx e = some s') :
    FollowsHeard s s' e ∧
      (∀ (i : Nat) (t t' : Task σ) (env : Env) (bytes : Bytes) (source : SocketAddr)
        (rest : List (Bytes × SocketAddr)), e = .task i env .udp → s.tasks[i]? = some t →
          t.udpRx = (bytes, source) :: rest → t.Opens bytes → s'.tasks[i]? = some t' →
          t'.panicked = false → t'.tunnel.peer = source) ∧
      ∀ (cfg : Config σ) (t t' : Tunnel σ) (env : Env) (event : Event),
        t.step cfg (env, event) = some t' → t.Follows cfg event t' := by
  refine ⟨⟨fun i t t' => step_peers stepped, step_addrs reachable.listens stepped⟩, ?_,
    fun cfg t t' env event => Tunnel.step_follows⟩
  intro i t t' env bytes source rest isTurn isTask queue opens isTask' sound
  subst isTurn
  obtain ⟨t₀, t₁, found, turned, found'⟩ := stepTask_own stepped
  cases isTask.symm.trans found
  cases isTask'.symm.trans found'
  exact Task.turn_opened turned queue opens sound

/-! ## A packet from elsewhere -/

/-- The first packet of the client's session. -/
def firstPacket : Bytes := smallFrame .keepalive 84215045 1 []

/-- A client connects, and sends its first packet from another address. -/
def clientMoves : List ServerEvent :=
  connectOnce ++ [.dispatcher (.small 2 6) (.datagram firstPacket ⟨.v4 1, 2⟩)]

/-- The tunnel follows the client. -/
theorem client_followed :
    ∃ s s' t t', Runs.run (step (.small .udp 0)) (init 0 .openMode) clientMoves = some s ∧
    s.step (.small .udp 0) (.task 0 (.small 3) .udp) = some s' ∧ s.tasks[0]? = some t ∧
    s'.tasks[0]? = some t' ∧ t'.tunnel.peer ≠ t.tunnel.peer ∧
    FollowsHeard s s' (.task 0 (.small 3) .udp) := by
  have evaluated : (Runs.run (step (.small .udp 0)) (init 0 .openMode) clientMoves).any (fun s =>
      (s.step (.small .udp 0) (.task 0 (.small 3) .udp)).any fun s' =>
        s.tasks[0]?.any fun t => s'.tasks[0]?.any fun t' => t'.tunnel.peer != t.tunnel.peer) =
          true := by
    decide +kernel
  obtain ⟨s, ran, later⟩ := (Option.any_eq_true _ _).mp evaluated
  obtain ⟨s', stepped, tasks⟩ := (Option.any_eq_true _ _).mp later
  obtain ⟨t, isTask, after⟩ := (Option.any_eq_true _ _).mp tasks
  obtain ⟨t', isTask', moved⟩ := (Option.any_eq_true _ _).mp after
  exact ⟨s, s', t, t', ran, stepped, isTask, isTask', bne_iff_ne.mp moved,
    (addresses_follow_opened ⟨0, .openMode, clientMoves, ran⟩ stepped).1⟩

/-- A client connects and sends a packet; then a copy of the packet comes from elsewhere. -/
def replayElsewhere : List ServerEvent :=
  connectOnce ++
    [.dispatcher (.small 2 6) (.datagram firstPacket ⟨.v4 1, 1⟩), .task 0 (.small 2) .udp,
      .dispatcher (.small 3 6) (.datagram firstPacket ⟨.v4 66, 6⟩), .task 0 (.small 3) .udp,
      .dispatcher (.small 4 6) .addrChange]

/-- The copy moves the tunnel and both entries of the dispatcher to where it came from. -/
theorem replay_moves_session : ∃ s t h,
    Runs.run (step (.small .udp 0)) (init 0 .openMode) replayElsewhere = some s ∧
    s.tasks[0]? = some t ∧
    t.handed = [(firstPacket, ⟨.v4 1, 1⟩), (firstPacket, ⟨.v4 66, 6⟩)] ∧
    t.tunnel.peer = ⟨.v4 66, 6⟩ ∧ s.sessions.lookup 84215045 = some h ∧
    h.currentAddr = ⟨.v4 66, 6⟩ ∧ s.addrIndex.lookup ⟨.v4 66, 6⟩ = some 84215045 := by
  have evaluated :
    (Runs.run (step (.small .udp 0)) (init 0 .openMode) replayElsewhere).any (fun s =>
      (s.tasks[0]?.any fun t =>
        t.handed = [(firstPacket, ⟨.v4 1, 1⟩), (firstPacket, ⟨.v4 66, 6⟩)] ∧
        t.tunnel.peer = ⟨.v4 66, 6⟩) &&
        ((s.sessions.lookup 84215045).any fun h => h.currentAddr = ⟨.v4 66, 6⟩) &&
        (s.addrIndex.lookup ⟨.v4 66, 6⟩ = some 84215045 : Bool)) = true := by
    decide +kernel
  obtain ⟨s, ran, facts⟩ := (Option.any_eq_true _ _).mp evaluated
  obtain ⟨tables, cached⟩ := Bool.and_eq_true_iff.mp facts
  obtain ⟨tasks, sessions⟩ := Bool.and_eq_true_iff.mp tables
  obtain ⟨t, isTask, received⟩ := (Option.any_eq_true _ _).mp tasks
  obtain ⟨h, found, current⟩ := (Option.any_eq_true _ _).mp sessions
  obtain ⟨handed, peer⟩ := of_decide_eq_true received
  exact ⟨s, t, h, ran, isTask, handed, peer, found, of_decide_eq_true current,
    of_decide_eq_true cached⟩

end Server

end Rustnies
