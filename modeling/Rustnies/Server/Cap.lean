import Rustnies.Server.Admission
import Rustnies.Server.Replay
import Rustnies.Server.Signals

/-! # The cap on the sessions of a key

`handle_handshake` makes room before it registers a session: when the table holds as
many sessions of the key as the cap allows, the one with the oldest traffic is evicted.
So the cap holds after every step. `TableStep` says once what a step can do to the
session table as far as the keys are concerned.
-/

namespace Rustnies.Server

variable {σ : Type} {ctx : ServerCtx σ} {s s' s₀ : Server σ}

/-- The sessions of a key in the table. -/
def peerCount (s : Server σ) (key : Bytes) : Nat :=
  s.sessions.countValues fun h => h.peerKey == key

/-- A session of the key, one with the oldest traffic. -/
structure OldestOf (s : Server σ) (key : Bytes) (sid : SessionId) (h : ClientHandle) : Prop where
  found : s.sessions.lookup sid = some h
  own : h.peerKey = key
  oldest : ∀ sid' h', s.sessions.lookup sid' = some h' → h'.peerKey =
    key → h.lastForwarded ≤ h'.lastForwarded

/-- A step in which the cap evicts the session `sid` of a key for a new one: its task is
    signalled, and the table loses this session and no other to the cap. -/
structure CapEvicts (s s' : Server σ) (key : Bytes) (sid : SessionId) (h : ClientHandle) :
    Prop where
  victim : s.OldestOf key sid h
  table : ∃ sid' h', h'.peerKey = key ∧ s'.sessions = (s.sessions.erase sid).insert sid' h'
  accepted : ∃ msg1 task, s'.accepted = s.accepted ++ [⟨msg1, key, task⟩]
  capEvicted : s'.capEvicted = s.capEvicted ++ [key]
  signalled : s'.Signalled h.task

/-- What a step does to the table: every session was there before, or a handshake adds
    one, with or without an eviction. -/
inductive TableStep (ctx : ServerCtx σ) (s s' : Server σ) : Prop where
  | carries (sessions : ∀ sid h', s'.sessions.lookup sid = some h' →
        ∃ h, s.sessions.lookup sid = some h ∧ h'.peerKey = h.peerKey)
      (capEvicted : s'.capEvicted = s.capEvicted)
  | joins (order : IterOrder) (sid : SessionId) (h : ClientHandle)
      (room : s.capVictim order h.peerKey ctx.maxSessionsPerPeer = none)
      (sessions : s'.sessions = s.sessions.insert sid h) (capEvicted : s'.capEvicted = s.capEvicted)
  | evicts (key : Bytes) (sid : SessionId) (h : ClientHandle) (evicted : CapEvicts s s' key sid h)

/-! ## The cap -/

theorem capVictim_oldestOf {order : IterOrder} {key : Bytes} {max : UInt8} {sid : SessionId}
    (victim : s.capVictim order key max = some sid) : ∃ h, s.OldestOf key sid h := by
  obtain ⟨h, found, own, oldest⟩ := capVictim_spec victim
  exact ⟨h, found, own, oldest⟩

theorem peerCount_lt_of_capVictim_none {order : IterOrder} {key : Bytes} {max : UInt8}
    (capped : max ≠ 0) (nobody : s.capVictim order key max = none) :
    s.peerCount key < max.toNat := by
  have positive : 0 < max.toNat := Nat.pos_of_ne_zero fun zero => capped (UInt8.toNat_inj.mp zero)
  by_cases under : s.peerCount key < max.toNat
  · exact under
  · simp only [peerCount, Table.countValues] at under
    have noneOwn : (order.arrange s.sessions.entries).filter
      (fun e => e.2.peerKey == key) = [] := by
      rw [capVictim, if_neg capped, if_neg under, oldestOf, Option.map_eq_none_iff,
        List.argmin_eq_none] at nobody
      exact nobody
    rw [← (order.perm _).countP_eq, List.countP_eq_length_filter, noneOwn] at under
    exact absurd positive under

/-- The cap takes out its victim and nothing else, and signals its task. -/
theorem evictOldestPeerSession_cases (ctx : ServerCtx σ) (owned : s.Owned) (ended : s.ClosedEnded)
    (order : IterOrder) (key : Bytes) :
    let s₁ := s.evictOldestPeerSession order key ctx.maxSessionsPerPeer
    (s.capVictim order key ctx.maxSessionsPerPeer = none ∧ s₁ = s) ∨
      ∃ sid h, s.OldestOf key sid h ∧ s₁.sessions = s.sessions.erase sid ∧
      s₁.accepted = s.accepted ∧ s₁.capEvicted = s.capEvicted ++ [key] ∧
      s₁.Signalled h.task := by
  intro s₁
  cases victim : s.capVictim order key ctx.maxSessionsPerPeer with
  | none => exact .inl ⟨rfl, evictOldestPeerSession_none victim⟩
  | some sid =>
      obtain ⟨h, oldest⟩ := capVictim_oldestOf victim
      obtain ⟨t, isTask, -⟩ := owned sid h oldest.found
      have still : (s.signalEvict h.task).sessions.lookup sid = some h := oldest.found
      have signalled := (signalEvict_signalled isTask (ended _ t isTask)).evolves
        (removeSession_evolves ctx .any (s.signalEvict h.task) sid)
      refine .inr ⟨sid, h, oldest, ?_⟩
      simp only [s₁, evictOldestPeerSession_victim victim oldest.found]
      refine ⟨?_, (removeSession_record _ sid).accepted, trivial, signalled⟩
      simp only [removeSession, still]
      rfl

/-! ## Steps -/

theorem TableStep.of_same (tableStep : TableStep ctx s₀ s')
    (sessions : s₀.sessions = s.sessions) (accepted : s₀.accepted = s.accepted)
    (capEvicted : s₀.capEvicted = s.capEvicted) : TableStep ctx s s' := by
  cases tableStep with
  | carries carried same => exact .carries (by rwa [← sessions]) (same.trans capEvicted)
  | joins order sid h room registered same =>
      refine .joins order sid h ?_ (by rw [registered, sessions]) (same.trans capEvicted)
      simp only [capVictim, ← sessions] at room ⊢
      exact room
  | evicts key sid h evicted =>
      obtain ⟨⟨found, own, oldest⟩, ⟨sid', h', fresh, table⟩, ⟨msg1, task, grown⟩,
        isEvicted, signalled⟩ := evicted
      rw [sessions] at found oldest table
      rw [accepted] at grown
      rw [capEvicted] at isEvicted
      exact .evicts key sid h ⟨⟨found, own, oldest⟩, ⟨sid', h', fresh, table⟩,
        ⟨msg1, task, grown⟩, isEvicted, signalled⟩

/-- No session is made. -/
def Scope.still : Scope := { Scope.any with admits := fun _ => False }

theorem TableStep.of_evolves (evolves : Evolves ctx Scope.still s s')
    (capEvicted : s'.capEvicted = s.capEvicted) :
    TableStep ctx s s' := by
  refine .carries (fun sid h' found => ?_) capEvicted
  rcases evolves.sessions found with ⟨h, found₀, moves⟩ | ⟨-, -, none, -⟩
  · exact ⟨h, found₀, moves.peerKey⟩
  · exact absurd none id

theorem acceptHandshake_tableStep (owned : s.Owned) (ended : s.ClosedEnded) (env : ServerEnv)
    (msg1 : Bytes) (carrier : SessionCarrier) {established : SessionEstablished UInt8}
    (runnable : established.selection.check = .ok ()) (named : established.sessionId ≠ 0) :
    TableStep ctx s (s.acceptHandshake ctx env msg1 carrier established).2 := by
  obtain ⟨profile, built, -⟩ :=
    Selection.buildable_of_check runnable ctx.profile.handshakeTransport
  have cases := evictOldestPeerSession_cases ctx owned ended env.order established.peerStatic
  simp only [acceptHandshake, built]
  generalize s.evictOldestPeerSession env.order established.peerStatic ctx.maxSessionsPerPeer =
    s₁ at cases ⊢
  have spawned := spawnClient_record ctx s₁ env carrier profile established
    (extractHeaderXorKeystream ctx established.handshakeHash profile.codec.maxHeaderLen)
  have evolves :=
    spawnClient_evolves ctx .any s₁ env carrier profile established trivial named rfl
  rcases cases with ⟨room, rfl⟩ | ⟨sid, h, oldest, removed, accepted, capEvicted, signalled⟩
  · exact .joins env.order established.sessionId _ room rfl spawned.capEvicted
  · refine .evicts established.peerStatic sid h ⟨oldest, ?_, ⟨msg1, s₁.tasks.length, ?_⟩,
      spawned.capEvicted.trans capEvicted, signalled.evolves (evolves.trans ?_)⟩
    · rw [← removed]
      exact ⟨established.sessionId, _, rfl, rfl⟩
    · rw [← accepted, ← spawned.accepted]
    · exact .of_same rfl rfl fun _ => ⟨rfl, rfl⟩

theorem handleHandshake_tableStep (owned : s.Owned) (ended : s.ClosedEnded) (env : ServerEnv)
    (msg1 : Bytes) (source : SocketAddr) (carrier : SessionCarrier) :
    TableStep ctx s (s.handleHandshake ctx env msg1 source carrier).2 := by
  cases result : (s.handleHandshake ctx env msg1 source carrier).1 with
  | false =>
      have refused := refused_of_failed result
      refine .carries (fun sid h' found => ⟨h', ?_, rfl⟩) refused.capEvicted
      rwa [refused.sessions] at found
  | true =>
      cases answered : s.respond ctx env msg1 source with
      | none => cases result.symm.trans (refused_of_no_answer answered).answer
      | some answer =>
          obtain ⟨established, wire⟩ := answer
          obtain ⟨-, -, -, -, -, -, runnable, -⟩ := respondMessage1_some answered
          simp only [handleHandshake, answered] at result ⊢
          cases sent : env.sendOk wire source with
          | false =>
              rw [sent] at result
              cases result
          | true =>
              rw [if_pos rfl]
              exact (acceptHandshake_tableStep (s := { s with probes := s.probes ++ [msg1] }) owned
                ended env msg1 carrier runnable (sessionId_of_respond ctx answered)).of_same rfl rfl
                rfl

theorem forward_tableStep (udp : ctx.carrier = .udp) {now : Instant} {datagram : Bytes}
    {source : SocketAddr} {sid : SessionId}
    (forwarded : s.forward now datagram source sid = some s') : TableStep ctx s s' :=
  .of_evolves (forward_evolves ctx _ s udp forwarded) (forward_record forwarded).capEvicted

theorem dispatchDatagram_tableStep (owned : s.Owned) (ended : s.ClosedEnded)
    (udp : ctx.carrier = .udp) (env : ServerEnv) (datagram : Bytes) (source : SocketAddr) :
    TableStep ctx s (s.dispatchDatagram ctx env datagram source) := by
  unfold dispatchDatagram
  have limited : ∀ s' : Server σ,
    TableStep ctx { s with probeLimiter := (s.probeLimiter.allow env.now source).2 }
    s' → TableStep ctx s s' := fun _ tableStep => tableStep.of_same rfl rfl rfl
  generalize isLimited : { s with probeLimiter := (s.probeLimiter.allow env.now source).2 } =
    s₁ at limited
  have owned₁ : s₁.Owned := isLimited ▸ owned
  have ended₁ : s₁.ClosedEnded := isLimited ▸ ended
  simp only [isLimited]
  cases routed : (s.peekRoutedSession env.order ctx.profile.handshakeTransport datagram).bind
      (s.forward env.now datagram source) with
  | some s' =>
      obtain ⟨sid, -, forwarded⟩ := Option.bind_eq_some_iff.mp routed
      exact forward_tableStep udp forwarded
  | none =>
      refine limited _ ?_
      simp only
      split
      · exact .of_evolves (.refl s₁) rfl
      · cases answered : s₁.handleHandshake ctx env datagram source .shared with
        | mk accepted after =>
            have handshake : TableStep ctx s₁
              (s₁.handleHandshake ctx env datagram source .shared).2 :=
              handleHandshake_tableStep owned₁ ended₁ env datagram source .shared
            rw [answered] at handshake
            cases accepted with
            | true => exact handshake
            | false =>
                have refused : s₁.Refused
                  (s₁.handleHandshake ctx env datagram source .shared) :=
                  refused_of_failed (by rw [answered])
                rw [answered] at refused
                simp only
                cases fallback : (after.addrFallback source).bind
                  (after.forward env.now datagram source) with
                | none => exact handshake
                | some s' =>
                    obtain ⟨sid, -, forwarded⟩ := Option.bind_eq_some_iff.mp fallback
                    exact .of_evolves
                      ((Evolves.of_same refused.tasks refused.sessions fun calm =>
                        absurd trivial calm).trans (forward_evolves ctx _ after udp forwarded))
                      ((forward_record forwarded).capEvicted.trans refused.capEvicted)

theorem resume_tableStep (owned : s.Owned) (ended : s.ClosedEnded) {env : ServerEnv} {n : Nat}
    (resumed : s.resume ctx env n = some s') : TableStep ctx s s' := by
  unfold resume at resumed
  cases awaited : s.awaiting with
  | nothing => simp [awaited] at resumed
  | backpressure i packet =>
      cases isTask : s.tasks[i]? with
      | none => simp [awaited, isTask] at resumed
      | some t =>
          simp only [awaited, isTask] at resumed
          split at resumed
          · cases resumed
            exact .of_evolves (.of_same rfl rfl fun _ => ⟨rfl, rfl⟩) rfl
          · rw [Option.ite_none_right_eq_some] at resumed
            cases resumed.2
            exact .of_evolves
              ((pushTun_evolves ctx _ s i packet).trans (.of_same rfl rfl fun _ => ⟨rfl, rfl⟩))
              rfl
  | message1 i =>
      cases isConnection : s.connections[i]? with
      | none => simp [awaited, isConnection] at resumed
      | some c =>
          simp only [awaited, isConnection] at resumed
          cases read : (c.readTurn n).1 with
          | message msg1 =>
              simp only [read] at resumed
              cases resumed
              exact (handleHandshake_tableStep
                (s := { s with connections := s.connections.set i (c.readTurn n).2, awaiting :=
                  .nothing }) owned ended env msg1 _ _).of_same rfl rfl rfl
          | more =>
              simp only [read] at resumed
              cases resumed
              exact .of_evolves (.of_same rfl rfl fun _ => ⟨rfl, rfl⟩) rfl
          | closed =>
              simp only [read] at resumed
              cases resumed
              exact .of_evolves (.of_same rfl rfl fun _ => ⟨rfl, rfl⟩) rfl
          | wait =>
              simp only [read] at resumed
              cases resumed

theorem step_tableStep (owned : s.Owned) (ended : s.ClosedEnded) {e : ServerEvent}
    (stepped : s.step ctx e = some s') : TableStep ctx s s' := by
  -- a step that tries no message makes no session
  have quiet : (∀ msg1, ¬ s.Tries msg1 e) → Records ctx s s' [] → TableStep ctx s s' :=
    fun silent records => by
    refine .of_evolves (step_evolves ctx _ s stepped ⟨fun _ _ => trivial, fun _ _ _ _ => trivial,
      fun msg1 _ tries => absurd tries (silent msg1), fun _ => trivial⟩) ?_
    obtain ⟨more, grown, few⟩ := records.capEvicted
    rw [grown, List.sublist_nil.mp few, List.append_nil]
  cases e with
  | dispatcher env branch =>
      obtain ⟨-, ⟨-, branched⟩ | ⟨n, rfl, resumed⟩⟩ :=
        step_dispatcher_cases ctx s stepped
      · obtain ⟨tried, records, received⟩ := stepDispatcher_records branched
        cases branch with
        | datagram data source =>
            simp only [stepDispatcher, Option.ite_none_right_eq_some, Option.some.injEq] at branched
            rw [← branched.2]
            exact dispatchDatagram_tableStep owned ended branched.1 env data source
        | resume n => cases branched
        | _ =>
            rw [List.sublist_nil.mp received] at records
            exact quiet (fun _ => id) records
      · exact resume_tableStep owned ended resumed
  | task i env branch => exact quiet (fun _ => id) (stepTask_record stepped).records
  | taskEnds i => exact quiet (fun _ => id) (endTask_record stepped).records
  | bytes i chunk =>
      obtain ⟨-, after⟩ := Option.ite_none_right_eq_some.mp stepped
      cases after
      exact .of_evolves (.of_same rfl rfl fun _ => ⟨rfl, rfl⟩) rfl
  | eof i =>
      cases stepped
      exact .of_evolves (.of_same rfl rfl fun _ => ⟨rfl, rfl⟩) rfl
  | auth change =>
      cases stepped
      exact .of_evolves (.of_same rfl rfl fun calm => absurd trivial calm) rfl

/-! ## Runs -/

theorem TableStep.peerCount_le (tableStep : TableStep ctx s s')
    (capped : ctx.maxSessionsPerPeer ≠ 0)
    (within : ∀ key, s.peerCount key ≤ ctx.maxSessionsPerPeer.toNat) (key : Bytes) :
    s'.peerCount key ≤ ctx.maxSessionsPerPeer.toNat := by
  cases tableStep with
  | carries sessions =>
      refine (Table.countValues_le fun sid h' found own => ?_).trans (within key)
      obtain ⟨h, found₀, same⟩ := sessions sid h' found
      exact ⟨h, found₀, by rwa [← same]⟩
  | joins order sid h room sessions =>
      have more := Table.countValues_insert_le (fun h => h.peerKey == key) s.sessions sid h
      rw [peerCount, sessions]
      by_cases own : h.peerKey = key
      · have fewer := peerCount_lt_of_capVictim_none capped room
        rw [own] at fewer
        rw [if_pos (beq_iff_eq.mpr own)] at more
        exact more.trans fewer
      · rw [if_neg fun same => own (beq_iff_eq.mp same)] at more
        exact more.trans (within key)
  | evicts key' sid h evicted =>
      obtain ⟨sid', h', fresh, sessions⟩ := evicted.table
      have more :=
        Table.countValues_insert_le (fun h => h.peerKey == key) (s.sessions.erase sid) sid' h'
      rw [peerCount, sessions]
      by_cases own : key' = key
      · have one :=
          Table.countValues_erase (p := fun h : ClientHandle => h.peerKey == key)
          evicted.victim.found (beq_iff_eq.mpr (evicted.victim.own.trans own))
        rw [if_pos (beq_iff_eq.mpr (fresh.trans own)), one] at more
        exact more.trans (within key)
      · rw [if_neg fun same => own (fresh.symm.trans (beq_iff_eq.mp same))] at more
        have fewer := Table.countValues_erase_le (fun h => h.peerKey == key) s.sessions sid
        exact more.trans (fewer.trans (within key))

/-- The cap holds, in a table whose sessions have their own tasks. -/
structure Capped (ctx : ServerCtx σ) (s : Server σ) : Prop where
  owned : s.Owned
  closedEnded : s.ClosedEnded
  within : ctx.maxSessionsPerPeer ≠ 0 → ∀ key,
    s.peerCount key ≤ ctx.maxSessionsPerPeer.toNat

theorem Capped.step (capped : Capped ctx s) {e : ServerEvent} (stepped : s.step ctx e = some s') :
    Capped ctx s' := by
  have evolves := step_evolves ctx .any s stepped (allows_any ctx s e)
  have tableStep := step_tableStep capped.owned capped.closedEnded stepped
  exact ⟨capped.owned.evolves evolves, capped.closedEnded.evolves evolves,
    fun isCapped => tableStep.peerCount_le isCapped (capped.within isCapped)⟩

theorem Reachable.capped (reachable : Reachable ctx s) : Capped ctx s := by
  obtain ⟨now, peerAuth, events, ran⟩ := reachable
  refine Runs.invariant (fun _ _ _ stepped capped => Capped.step capped stepped) ran
    ⟨?_, ?_, fun _ key => Nat.zero_le _⟩
  · intro sid h found
    rw [init, AList.lookup_empty] at found
    cases found
  · intro i t isTask
    cases isTask

/-- Under a cap, no key ever has more sessions than it allows. A step evicts a session
    for the cap only when a handshake of the same key is accepted, and then exactly one,
    with the oldest traffic of that key; what the cap itself removes is that session. -/
theorem cap_holds (capped : ctx.maxSessionsPerPeer ≠ 0) (reachable : Reachable ctx s) :
    (∀ key, s.peerCount key ≤ ctx.maxSessionsPerPeer.toNat) ∧
      (∀ order key, s.evictOldestPeerSession order key ctx.maxSessionsPerPeer = s ∨
        ∃ sid h, s.OldestOf key sid h ∧
          (s.evictOldestPeerSession order key ctx.maxSessionsPerPeer).sessions =
          s.sessions.erase sid) ∧
      ∀ e s', s.step ctx e = some s' → s'.capEvicted = s.capEvicted ∨ ∃ key sid h,
        CapEvicts s s' key sid h := by
  have kept := reachable.capped
  refine ⟨kept.within capped, fun order key => ?_, fun e s' stepped => ?_⟩
  · rcases evictOldestPeerSession_cases ctx kept.owned kept.closedEnded order key with
      ⟨-, same⟩ | ⟨sid, h, oldest, removed, -⟩
    · exact .inl same
    · exact .inr ⟨sid, h, oldest, removed⟩
  · cases step_tableStep kept.owned kept.closedEnded stepped with
    | carries _ same => exact .inl same
    | joins _ _ _ _ _ same => exact .inl same
    | evicts key sid h evicted => exact .inr ⟨key, sid, h, evicted⟩

/-- A server with a cap of one session, and one client. -/
def oneCapped : Server Unit :=
  (Runs.run (step (.small .udp 1)) (init 0 .openMode) connectOnce).getD (init 0 .openMode)

/-- The client connects again, from another port. -/
def connectAgain : ServerEvent :=
  .dispatcher (.small 2 6) (.datagram (smallMessage1 9 4) ⟨.v4 1, 2⟩)

/-- The second session of the client takes the place of its first one. -/
theorem second_session_capped :
    ∃ s', oneCapped.step (.small .udp 1) connectAgain = some s' ∧ oneCapped.peerCount
    (List.replicate 32 9) ≤ 1 ∧ ∃ key sid h, CapEvicts oneCapped s' key sid h := by
  have evicts : (oneCapped.step (.small .udp 1) connectAgain).any
    (·.capEvicted.length == 1) = true := by
    decide +kernel
  have before : oneCapped.capEvicted.length = 0 := by decide +kernel
  have reachable : Reachable (.small .udp 1) oneCapped := ⟨0, .openMode, connectOnce, rfl⟩
  obtain ⟨s', stepped, one⟩ := (Option.any_eq_true _ _).mp evicts
  obtain ⟨within, -, cases⟩ := cap_holds (by decide) reachable
  refine ⟨s', stepped, within _, (cases connectAgain s' stepped).resolve_left fun same => ?_⟩
  rw [same, before] at one
  cases one

end Rustnies.Server
