import Rustnies.Server.Sessions
import Mathlib.Data.List.Dedup

/-! # Message 1 and the sessions it creates

The responder answers every message 1 it can read, with a fresh ephemeral of its
own, and keeps no memory of the ones it has answered. So what bounds the sessions
of a key, and the evictions by its cap, is how often a message 1 of that key is
received, copies included.
-/

namespace Rustnies.Server

variable {σ : Type} (ctx : ServerCtx σ) {s s' : Server σ}

/-- The datagrams that a run receives, in order. -/
def receptions (events : List ServerEvent) : List Bytes :=
  events.filterMap fun
    | .dispatcher _ (.datagram data _) => some data
    | _ => none

/-! ## What is recorded -/

/-- What a step adds to the record: the messages it tries as message 1, and at most
    one session and one eviction for each, of the key it carries. -/
structure Records (s s' : Server σ) (tried : List Bytes) : Prop where
  probes : s'.probes = s.probes ++ tried
  accepted : ∃ more, s'.accepted = s.accepted ++ more ∧
    List.Sublist (more.map Accepted.peerKey) (tried.filterMap (readsAs ctx))
  capEvicted : ∃ more, s'.capEvicted = s.capEvicted ++ more ∧
    List.Sublist more (tried.filterMap (readsAs ctx))
  /-- A datagram server never waits for a message 1. -/
  waits : ctx.carrier = .udp → ∀ i, s'.awaiting = .message1 i → s.awaiting = .message1 i

variable {ctx}

theorem Records.trans {s'' : Server σ} {tried tried' : List Bytes} (first : Records ctx s s' tried)
    (second : Records ctx s' s'' tried') : Records ctx s s'' (tried ++ tried') := by
  obtain ⟨probes, ⟨accepted, isAccepted, keys⟩, ⟨evicted, isEvicted, victims⟩, waits⟩ :=
    first
  obtain ⟨probes', ⟨accepted', isAccepted', keys'⟩, ⟨evicted', isEvicted', victims'⟩,
    waits'⟩ := second
  refine ⟨by rw [probes', probes, List.append_assoc],
    ⟨accepted ++ accepted', by rw [isAccepted', isAccepted, List.append_assoc], ?_⟩,
    ⟨evicted ++ evicted', by rw [isEvicted', isEvicted, List.append_assoc], ?_⟩,
    fun udp i awaited => waits udp i (waits' udp i awaited)⟩
  · rw [List.map_append, List.filterMap_append]
    exact keys.append keys'
  · rw [List.filterMap_append]
    exact victims.append victims'

/-- An operation that is no handshake adds nothing. -/
structure SameRecord (s s' : Server σ) : Prop where
  probes : s'.probes = s.probes
  accepted : s'.accepted = s.accepted
  capEvicted : s'.capEvicted = s.capEvicted
  waits : ∀ i, s'.awaiting = .message1 i → s.awaiting = .message1 i

theorem SameRecord.refl (s : Server σ) : SameRecord s s :=
  ⟨rfl, rfl, rfl, fun _ awaited => awaited⟩

theorem SameRecord.trans {s'' : Server σ} (first : SameRecord s s') (second : SameRecord s' s'') :
    SameRecord s s'' :=
  ⟨second.probes.trans first.probes, second.accepted.trans first.accepted,
    second.capEvicted.trans first.capEvicted, fun i awaited =>
    first.waits i (second.waits i awaited)⟩

theorem SameRecord.records (same : SameRecord s s') : Records ctx s s' [] where
  probes := by rw [same.probes, List.append_nil]
  accepted := ⟨[], by rw [same.accepted, List.append_nil], List.nil_sublist _⟩
  capEvicted := ⟨[], by rw [same.capEvicted, List.append_nil], List.nil_sublist _⟩
  waits _ := same.waits

theorem removeSession_record (s : Server σ) (sid : SessionId) :
    SameRecord s (s.removeSession sid) := by
  unfold removeSession
  split
  · exact .refl s
  · exact ⟨rfl, rfl, rfl, fun _ awaited => awaited⟩

theorem signalAll_record (s : Server σ)
    (victims : List (Sigma fun _ : SessionId => ClientHandle)) :
    SameRecord s (s.signalAll victims) := by
  induction victims generalizing s with
  | nil => exact .refl s
  | cons e victims ih =>
      have first : SameRecord s (s.signalEvict e.2.task) :=
        ⟨rfl, rfl, rfl, fun _ awaited => awaited⟩
      exact first.trans (ih _)

theorem forward_record {now : Instant} {datagram : Bytes} {source : SocketAddr} {sid : SessionId}
    (forwarded : s.forward now datagram source sid = some s') : SameRecord s s' := by
  unfold forward at forwarded
  split at forwarded
  · cases forwarded
  · split at forwarded
    · cases forwarded
    · rw [Option.ite_none_left_eq_some] at forwarded
      cases forwarded.2
      exact ⟨rfl, rfl, rfl, fun _ awaited => awaited⟩

theorem spawnClient_record (ctx : ServerCtx σ) (s : Server σ) (env : ServerEnv)
    (carrier : SessionCarrier) (resolved : ResolvedProfile) (established : SessionEstablished UInt8)
    (keystream : Option Bytes) :
    SameRecord s (s.spawnClient ctx env carrier resolved established keystream) := by
  have removed := removeSession_record
    { s with tasks := s.tasks ++ [newTask ctx env carrier resolved established] }
      established.sessionId
  exact ⟨removed.probes, removed.accepted, removed.capEvicted, removed.waits⟩

theorem evictOldestPeerSession_record (s : Server σ) (order : IterOrder) (peerKey : Bytes)
    (max : UInt8) :
    (s.evictOldestPeerSession order peerKey max).probes = s.probes ∧
      (s.evictOldestPeerSession order peerKey max).accepted = s.accepted ∧
      ((s.evictOldestPeerSession order peerKey max).capEvicted = s.capEvicted ∨
        (s.evictOldestPeerSession order peerKey max).capEvicted = s.capEvicted ++ [peerKey]) ∧
      ∀ i, (s.evictOldestPeerSession order peerKey max).awaiting = .message1 i → s.awaiting =
        .message1 i := by
  cases victim : s.capVictim order peerKey max with
  | none =>
      rw [evictOldestPeerSession_none victim]
      exact ⟨rfl, rfl, .inl rfl, fun _ awaited => awaited⟩
  | some sid =>
      obtain ⟨h, found, -⟩ := capVictim_spec victim
      have removed := removeSession_record (s.signalEvict h.task) sid
      rw [evictOldestPeerSession_victim victim found]
      exact ⟨removed.probes, removed.accepted, .inr rfl, removed.waits⟩

theorem acceptHandshake_records (s : Server σ) (env : ServerEnv) {msg1 : Bytes}
    (carrier : SessionCarrier) {established : SessionEstablished UInt8}
    (carries : readsAs ctx msg1 = some established.peerStatic) :
    Records ctx s
      (acceptHandshake ctx env { s with probes := s.probes ++ [msg1] } msg1 carrier established).2
      [msg1] := by
  have tried : [msg1].filterMap (readsAs ctx) = [established.peerStatic] := by
    rw [List.filterMap_cons_some carries, List.filterMap_nil]
  obtain ⟨probes, accepted, evicted, waits⟩ := evictOldestPeerSession_record
    { s with probes := s.probes ++ [msg1] } env.order established.peerStatic ctx.maxSessionsPerPeer
  generalize after : evictOldestPeerSession env.order { s with probes := s.probes ++ [msg1] }
    established.peerStatic ctx.maxSessionsPerPeer = s₁ at probes accepted evicted waits
  have evictions : ∃ more, s₁.capEvicted = s.capEvicted ++ more ∧
      List.Sublist more [established.peerStatic] := by
    rcases evicted with same | one
    · exact ⟨[], by rw [same, List.append_nil], List.nil_sublist _⟩
    · exact ⟨[established.peerStatic], one, List.Sublist.refl _⟩
  simp only [acceptHandshake, after]
  cases ResolvedProfile.withHandshakeTransport established.selection
    ctx.profile.handshakeTransport with
  | error e =>
      exact ⟨probes, ⟨[], by simpa using accepted, List.nil_sublist _⟩,
        by rw [tried]; exact evictions, fun _ => waits⟩
  | ok resolved =>
      have spawned := spawnClient_record ctx s₁ env carrier resolved established
        (extractHeaderXorKeystream ctx established.handshakeHash resolved.codec.maxHeaderLen)
      refine ⟨spawned.probes.trans probes,
        ⟨[⟨msg1, established.peerStatic, s₁.tasks.length⟩], ?_, ?_⟩, ?_,
        fun _ i awaited => waits i (spawned.waits i awaited)⟩
      · simp only [spawned.accepted, accepted]
      · rw [tried]
        exact List.Sublist.refl _
      · rw [tried]
        simp only [spawned.capEvicted]
        exact evictions

theorem handleHandshake_records (s : Server σ) (env : ServerEnv) (msg1 : Bytes)
    (source : SocketAddr) (carrier : SessionCarrier) :
    Records ctx s (s.handleHandshake ctx env msg1 source carrier).2 [msg1] := by
  have unanswered : Records ctx s { s with probes := s.probes ++ [msg1] } [msg1] :=
    ⟨rfl, ⟨[], (List.append_nil _).symm, List.nil_sublist _⟩,
      ⟨[], (List.append_nil _).symm, List.nil_sublist _⟩, fun _ _ awaited => awaited⟩
  unfold handleHandshake
  cases answered : s.respond ctx env msg1 source with
  | none => exact unanswered
  | some answer =>
      simp only
      split
      · exact acceptHandshake_records s env carrier (readsAs_of_respond ctx answered)
      · exact unanswered

theorem dispatchDatagram_records (s : Server σ) (env : ServerEnv) (datagram : Bytes)
    (source : SocketAddr) :
    ∃ tried, Records ctx s (s.dispatchDatagram ctx env datagram source) tried ∧
      List.Sublist tried [datagram] := by
  unfold dispatchDatagram
  have limited : SameRecord s { s with probeLimiter := (s.probeLimiter.allow env.now source).2 } :=
    ⟨rfl, rfl, rfl, fun _ awaited => awaited⟩
  have handshake : Records ctx _ _ _ := handleHandshake_records
    { s with probeLimiter := (s.probeLimiter.allow env.now source).2 } env datagram source .shared
  simp only
  cases routed : (s.peekRoutedSession env.order ctx.profile.handshakeTransport datagram).bind
      (s.forward env.now datagram source) with
  | some s' =>
      obtain ⟨sid, -, forwarded⟩ := Option.bind_eq_some_iff.mp routed
      exact ⟨[], (forward_record forwarded).records, List.nil_sublist _⟩
  | none =>
      simp only
      split
      · exact ⟨[], limited.records, List.nil_sublist _⟩
      · refine ⟨[datagram], ?_, List.Sublist.refl _⟩
        cases answered : handleHandshake ctx env
            { s with probeLimiter := (s.probeLimiter.allow env.now source).2 } datagram source
              .shared with
        | mk accepted after =>
            rw [answered] at handshake
            have both : Records ctx s after [datagram] := limited.records.trans handshake
            cases accepted with
            | true => exact both
            | false =>
                simp only
                cases fallback : (after.addrFallback source).bind
                  (after.forward env.now datagram source) with
                | none => exact both
                | some s' =>
                    obtain ⟨sid, -, forwarded⟩ := Option.bind_eq_some_iff.mp fallback
                    exact both.trans (forward_record forwarded).records

theorem routeTunPacket_record (s : Server σ) (env : ServerEnv) (packet : Bytes) :
    SameRecord s (s.routeTunPacket env packet) := by
  unfold routeTunPacket
  split
  · exact .refl s
  · simp only
    split
    · exact .refl s
    · split
      · exact ⟨rfl, rfl, rfl, fun _ awaited => awaited⟩
      · exact ⟨rfl, rfl, rfl, fun _ awaited => nomatch awaited⟩

theorem learnTunIp_record (ctx : ServerCtx σ) (s : Server σ) (sid : SessionId) (packet : Bytes) :
    SameRecord s (s.learnTunIp ctx sid packet) := by
  unfold learnTunIp
  split
  · split
    · exact ⟨rfl, rfl, rfl, fun _ awaited => awaited⟩
    · exact ⟨rfl, rfl, rfl, fun _ awaited => awaited⟩
  · exact .refl s

theorem applyRoam_record (s : Server σ) (env : ServerEnv) (sid : SessionId)
    (newAddr : SocketAddr) :
    SameRecord s (s.applyRoam env sid newAddr) := by
  unfold applyRoam
  split
  · exact .refl s
  · simp only
    split
    · exact .refl s
    · exact ⟨rfl, rfl, rfl, fun _ awaited => awaited⟩

theorem handleControlCommand_record (s : Server σ) (command : ControlCommand) :
    SameRecord s (s.handleControlCommand command) := by
  cases command with
  | listSessions => exact .refl s
  | revoke peerKey => exact signalAll_record s _
  | disconnect sessionId peerKey =>
      simp only [handleControlCommand, evictSessions]
      split
      · exact signalAll_record s _
      · exact signalAll_record s _
      · exact .refl s

theorem shutdown_record (s : Server σ) : SameRecord s s.shutdown :=
  ⟨rfl, rfl, rfl, fun _ awaited => awaited⟩

theorem stepTask_record {i : Nat} {env : Env} {branch : Branch}
    (stepped : s.stepTask i env branch = some s') : SameRecord s s' := by
  unfold stepTask at stepped
  split at stepped
  · cases stepped
  · obtain ⟨t', -, rfl⟩ := Option.map_eq_some_iff.mp stepped
    simp only
    split
    · exact ⟨rfl, rfl, rfl, fun _ awaited => awaited⟩
    · exact ⟨rfl, rfl, rfl, fun _ awaited => awaited⟩

theorem endTask_record {i : Nat} (ended : s.endTask i = some s') : SameRecord s s' := by
  unfold endTask at ended
  split at ended
  · cases ended
  · rw [Option.ite_none_left_eq_some] at ended
    cases ended.2
    exact ⟨rfl, rfl, rfl, fun _ awaited => awaited⟩

theorem resume_records {env : ServerEnv} {n : Nat} (resumed : s.resume ctx env n = some s') :
    ∃ tried, Records ctx s s' tried ∧ ((∀ i, s.awaiting ≠ .message1 i) → tried = []) := by
  unfold resume at resumed
  cases awaited : s.awaiting with
  | nothing => simp [awaited] at resumed
  | backpressure i packet =>
      refine ⟨[], SameRecord.records ?_, fun _ => rfl⟩
      cases isTask : s.tasks[i]? with
      | none => simp [awaited, isTask] at resumed
      | some t =>
          simp only [awaited, isTask] at resumed
          split at resumed
          · cases resumed
            exact ⟨rfl, rfl, rfl, fun _ awaited => nomatch awaited⟩
          · rw [Option.ite_none_right_eq_some] at resumed
            cases resumed.2
            exact ⟨rfl, rfl, rfl, fun _ awaited => nomatch awaited⟩
  | message1 i =>
      cases isConnection : s.connections[i]? with
      | none => simp [awaited, isConnection] at resumed
      | some c =>
          simp only [awaited, isConnection] at resumed
          cases read : (c.readTurn n).1 with
          | message msg1 =>
              simp only [read] at resumed
              cases resumed
              refine ⟨[msg1], ?_, fun calm => absurd rfl (calm i)⟩
              have waiting : SameRecord s { s with
                  connections := s.connections.set i (c.readTurn n).2
                  awaiting := .nothing } := ⟨rfl, rfl, rfl, fun _ awaited => nomatch awaited⟩
              exact waiting.records.trans (handleHandshake_records _ env msg1 _ _)
          | more =>
              simp only [read] at resumed
              cases resumed
              exact ⟨[], SameRecord.records ⟨rfl, rfl, rfl, fun _ => awaited.trans⟩,
                fun _ => rfl⟩
          | closed =>
              simp only [read] at resumed
              cases resumed
              exact ⟨[], SameRecord.records ⟨rfl, rfl, rfl, fun _ awaited => nomatch awaited⟩,
                fun _ => rfl⟩
          | wait =>
              simp only [read] at resumed
              cases resumed

theorem stepDispatcher_records {env : ServerEnv} {branch : DispatcherBranch}
    (stepped : s.stepDispatcher ctx env branch = some s') :
    ∃ tried, Records ctx s s' tried ∧ List.Sublist tried
    (receptions [.dispatcher env branch]) := by
  have quiet : SameRecord s s' →
      ∃ tried, Records ctx s s' tried ∧
      List.Sublist tried (receptions [.dispatcher env branch]) :=
    fun same => ⟨[], same.records, List.nil_sublist _⟩
  cases branch with
  | stop requested =>
      cases stepped
      refine quiet ?_
      split
      · exact shutdown_record s
      · exact .refl s
  | tun packet =>
      cases stepped
      exact quiet (routeTunPacket_record s env packet)
  | tunError =>
      cases stepped
      exact quiet (shutdown_record s)
  | tunWrite =>
      simp only [stepDispatcher] at stepped
      split at stepped
      · cases stepped
      · rename_i post rest _
        cases stepped
        have learned :=
          learnTunIp_record ctx { s with tunWriteRx := rest } post.sessionId post.packet
        exact quiet ⟨learned.probes, learned.accepted, learned.capEvicted, learned.waits⟩
  | addrChange =>
      simp only [stepDispatcher] at stepped
      split at stepped
      · cases stepped
      · rename_i sid newAddr rest _
        cases stepped
        have roamed := applyRoam_record { s with addrChangeRx := rest } env sid newAddr
        exact quiet ⟨roamed.probes, roamed.accepted, roamed.capEvicted, roamed.waits⟩
  | control command =>
      cases stepped
      exact quiet (handleControlCommand_record s command)
  | datagram data source =>
      simp only [stepDispatcher, Option.ite_none_right_eq_some] at stepped
      obtain ⟨-, dispatched⟩ := stepped
      cases dispatched
      exact dispatchDatagram_records s env data source
  | connection source =>
      simp only [stepDispatcher, Option.ite_none_right_eq_some] at stepped
      obtain ⟨tcp, accepted⟩ := stepped
      cases accepted
      refine ⟨[], ⟨(List.append_nil _).symm,
        ⟨[], (List.append_nil _).symm, List.nil_sublist _⟩,
        ⟨[], (List.append_nil _).symm, List.nil_sublist _⟩, fun udp => ?_⟩,
        List.nil_sublist _⟩
      rw [tcp] at udp
      cases udp
  | acceptError =>
      cases stepped
      exact quiet (.refl s)
  | sweep =>
      cases stepped
      exact quiet ⟨rfl, rfl, rfl, fun _ awaited => awaited⟩
  | resume n => cases stepped

theorem step_records {e : ServerEvent} (stepped : s.step ctx e = some s') :
    ∃ tried, Records ctx s s' tried ∧
      ((∀ i, s.awaiting ≠ .message1 i) → List.Sublist tried (receptions [e])) := by
  have quiet : SameRecord s s' → ∃ tried, Records ctx s s' tried ∧
      ((∀ i, s.awaiting ≠ .message1 i) → List.Sublist tried (receptions [e])) :=
    fun same => ⟨[], same.records, fun _ => List.nil_sublist _⟩
  cases e with
  | dispatcher env branch =>
      obtain ⟨-, ⟨-, branched⟩ | ⟨n, rfl, resumed⟩⟩ :=
        step_dispatcher_cases ctx s stepped
      · obtain ⟨tried, records, received⟩ := stepDispatcher_records branched
        exact ⟨tried, records, fun _ => received⟩
      · obtain ⟨tried, records, idle⟩ := resume_records resumed
        refine ⟨tried, records, fun calm => ?_⟩
        rw [idle calm]
        exact List.nil_sublist _
  | task i env branch => exact quiet (stepTask_record stepped)
  | taskEnds i => exact quiet (endTask_record stepped)
  | bytes i chunk =>
      simp only [step, Option.ite_none_right_eq_some] at stepped
      cases stepped.2
      exact quiet ⟨rfl, rfl, rfl, fun _ awaited => awaited⟩
  | eof i =>
      cases stepped
      exact quiet ⟨rfl, rfl, rfl, fun _ awaited => awaited⟩
  | auth change =>
      cases stepped
      exact quiet ⟨rfl, rfl, rfl, fun _ awaited => awaited⟩

/-! ## Runs -/

theorem receptions_cons (e : ServerEvent) (events : List ServerEvent) :
    receptions (e :: events) = receptions [e] ++ receptions events :=
  List.filterMap_append (l := [e])

theorem run_records {s s' : Server σ} {events : List ServerEvent}
    (ran : Runs.run (step ctx) s events = some s') :
    ∃ tried, Records ctx s s' tried ∧
    (ctx.carrier = .udp → (∀ i, s.awaiting ≠ .message1 i) → List.Sublist tried
      (receptions events)) := by
  induction events generalizing s with
  | nil =>
      cases ran
      exact ⟨[], (SameRecord.refl s').records, fun _ _ => List.nil_sublist _⟩
  | cons e events ih =>
      obtain ⟨mid, first, rest⟩ := Runs.run_cons_eq_some.mp ran
      obtain ⟨tried, records, received⟩ := step_records first
      obtain ⟨tried', records', received'⟩ := ih rest
      refine ⟨tried ++ tried', records.trans records', fun udp calm => ?_⟩
      rw [receptions_cons]
      exact (received calm).append
        (received' udp fun i awaited => calm i (records.waits udp i awaited))

variable (ctx)

/-- The messages that can be a message 1: every datagram of a datagram server, and the
    first message of every connection of a stream server. -/
def firstMessages (s : Server σ) (events : List ServerEvent) : List Bytes :=
  match ctx.carrier with
  | .udp => receptions events
  | .tcp => s.probes

/-- The messages of a list that carry a key as a message 1. -/
def copiesOf (key : Bytes) (messages : List Bytes) : List Bytes :=
  messages.filter fun message => readsAs ctx message = some key

/-- How many of them are copies of an earlier one. -/
def replaysOf (key : Bytes) (messages : List Bytes) : Nat :=
  (copiesOf ctx key messages).length - (copiesOf ctx key messages).dedup.length

variable {ctx}

theorem count_filterMap_readsAs (key : Bytes) (messages : List Bytes) :
    (messages.filterMap (readsAs ctx)).count key = (copiesOf ctx key messages).length := by
  induction messages with
  | nil => rfl
  | cons message messages ih =>
      cases read : readsAs ctx message with
      | none => simpa [copiesOf, read] using ih
      | some key' =>
          by_cases same : key' = key
          · simpa [copiesOf, read, same] using ih
          · simpa [copiesOf, read, same] using ih

theorem probes_sublist {now : Instant} {peerAuth : PeerAuth} {events : List ServerEvent}
    (ran : Runs.run (step ctx) (init now peerAuth) events = some s) :
    List.Sublist s.probes (firstMessages ctx s events) := by
  obtain ⟨tried, records, received⟩ := run_records ran
  have all : s.probes = tried := records.probes
  unfold firstMessages
  cases isCarrier : ctx.carrier with
  | udp =>
      rw [all]
      exact received isCarrier fun i awaited => nomatch awaited
  | tcp => exact List.Sublist.refl _

/-- Distinct copies were produced, and the rest are replays. -/
theorem copiesOf_length_le {key : Bytes} {messages produced : List Bytes}
    (genuine : ∀ message ∈ messages, readsAs ctx message = some key → message ∈ produced) :
    (copiesOf ctx key messages).length ≤ produced.dedup.length + replaysOf ctx key messages := by
  have inside : (copiesOf ctx key messages).dedup ⊆ produced.dedup := fun message copy => by
    have copy := List.mem_filter.mp (List.mem_dedup.mp copy)
    exact List.mem_dedup.mpr (genuine message copy.1 (of_decide_eq_true copy.2))
  have distinct := ((List.nodup_dedup (copiesOf ctx key messages)).subperm inside).length_le
  unfold replaysOf
  omega

/-- The sessions of a key, and its evictions by the cap, are at most as many as the
    distinct messages 1 that its holder produced and the replays that were received. -/
theorem sessions_le_distinct_add_replays {now : Instant} {peerAuth : PeerAuth}
    {events : List ServerEvent} (ran : Runs.run (step ctx) (init now peerAuth) events = some s)
    (key : Bytes) (produced : List Bytes)
    (genuine : ∀ message ∈ firstMessages ctx s events,
      readsAs ctx message = some key → message ∈ produced) :
    s.accepted.countP (fun a => a.peerKey == key) ≤
        produced.dedup.length + replaysOf ctx key (firstMessages ctx s events) ∧
      s.capEvicted.count key ≤
        produced.dedup.length + replaysOf ctx key (firstMessages ctx s events) := by
  obtain ⟨tried, records, -⟩ := run_records ran
  have all : s.probes = tried := records.probes
  obtain ⟨accepted, isAccepted, keys⟩ := records.accepted
  obtain ⟨evicted, isEvicted, victims⟩ := records.capEvicted
  have bound : (tried.filterMap (readsAs ctx)).count key ≤
      produced.dedup.length + replaysOf ctx key (firstMessages ctx s events) :=
    calc (tried.filterMap (readsAs ctx)).count key = (copiesOf ctx key s.probes).length := by
          rw [count_filterMap_readsAs, all]
      _ ≤ (copiesOf ctx key (firstMessages ctx s events)).length :=
          ((probes_sublist ran).filter _).length_le
      _ ≤ _ := copiesOf_length_le genuine
  constructor
  · have count := keys.count_le key
    rw [List.count, List.countP_map] at count
    rw [isAccepted]
    exact count.trans bound
  · rw [isEvicted]
    exact (victims.count_le key).trans bound

/-- One message 1 arrives from the given hosts. -/
def replayFrom (hosts : List UInt8) : List ServerEvent :=
  hosts.map fun host => .dispatcher (.small host.toNat host)
    (.datagram (smallMessage1 9 3) ⟨.v4 (.ofNat 32 host.toNat), 1⟩)

/-- One message 1, received three times, makes three sessions and evicts two. -/
theorem replayed_sessions_outnumber :
    ∃ s, Runs.run (step (ServerCtx.small .udp 1)) (init 0 .openMode)
    (replayFrom [1, 2, 3]) = some s ∧
    (∀ message ∈ receptions (replayFrom [1, 2, 3]), message ∈ [smallMessage1 9 3]) ∧
    [smallMessage1 9 3].dedup.length < s.accepted.countP
    (fun a => a.peerKey == List.replicate 32 9) ∧ [smallMessage1 9 3].dedup.length <
    s.capEvicted.count (List.replicate 32 9) :=
  ⟨_, rfl, by decide, by decide, by decide⟩

/-- Two receptions of one message 1 are one message and one replay. -/
theorem replayed_sessions_bounded :
    ∃ s, Runs.run (step (ServerCtx.small .udp 1)) (init 0 .openMode)
    (replayFrom [1, 2]) = some s ∧ s.accepted.countP
    (fun a => a.peerKey == List.replicate 32 9) ≤ 1 + 1 ∧ s.capEvicted.count
    (List.replicate 32 9) ≤ 1 + 1 := by
  obtain ⟨s, ran⟩ : ∃ s, Runs.run (step (ServerCtx.small .udp 1)) (init 0 .openMode)
    (replayFrom [1, 2]) = some s := ⟨_, rfl⟩
  have genuine : ∀ message ∈ receptions (replayFrom [1, 2]),
      readsAs (ServerCtx.small .udp 1) message = some (List.replicate 32 9) →
        message ∈ [smallMessage1 9 3] := by decide
  have once : replaysOf (ServerCtx.small .udp 1) (List.replicate 32 9)
    (receptions (replayFrom [1, 2])) = 1 := by
    decide
  have bound :=
    sessions_le_distinct_add_replays ran (List.replicate 32 9) [smallMessage1 9 3] genuine
  simp only [firstMessages, ServerCtx.small] at bound once
  rw [once] at bound
  exact ⟨s, ran, bound⟩

end Rustnies.Server
