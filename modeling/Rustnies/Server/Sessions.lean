import Rustnies.Server.Effects

/-! # What a new session does to the others

A handshake that is accepted may evict one session of the same key and then
registers its own. The table is keyed by 32 bits of the handshake hash, and the
registration drops whatever handle stands under that id.
-/

namespace Rustnies.Server

variable {σ : Type} {ctx : ServerCtx σ} {s : Server σ}

/-! ## The victim of the cap -/

/-- The cap evicts a session of the key, one with the oldest traffic. -/
theorem capVictim_spec {order : IterOrder} {peerKey : Bytes} {max : UInt8} {sid : SessionId}
    (victim : s.capVictim order peerKey max = some sid) :
    ∃ h, s.sessions.lookup sid = some h ∧ h.peerKey = peerKey ∧
      ∀ sid' h', s.sessions.lookup sid' = some h' → h'.peerKey = peerKey →
        h.lastForwarded ≤ h'.lastForwarded := by
  have inside : ∀ e, e ∈ order.arrange s.sessions.entries ↔
    s.sessions.lookup e.1 = some e.2 := fun e =>
    (order.perm _).mem_iff.trans AList.mem_lookup_iff.symm
  simp only [capVictim, Option.ite_none_left_eq_some, oldestOf, Option.map_eq_some_iff] at victim
  obtain ⟨-, -, e, oldest, rfl⟩ := victim
  have member := List.mem_filter.mp (List.argmin_mem oldest)
  refine ⟨e.2, (inside e).mp member.1, eq_of_beq member.2, fun sid' h' found same => ?_⟩
  have candidate : (⟨sid', h'⟩ : Sigma fun _ : SessionId => ClientHandle) ∈
      (order.arrange s.sessions.entries).filter fun e => e.2.peerKey == peerKey :=
    List.mem_filter.mpr ⟨(inside ⟨sid', h'⟩).mpr found, beq_iff_eq.mpr same⟩
  have least := List.le_of_mem_argmin candidate oldest
  exact least

theorem evictOldestPeerSession_victim {order : IterOrder} {peerKey : Bytes} {max : UInt8}
    {sid : SessionId} {h : ClientHandle} (victim : s.capVictim order peerKey max = some sid)
    (found : s.sessions.lookup sid = some h) :
    s.evictOldestPeerSession order peerKey max =
      { (s.signalEvict h.task).removeSession sid with capEvicted :=
        s.capEvicted ++ [peerKey] } := by
  simp only [evictOldestPeerSession, victim, found]
  rfl

theorem evictOldestPeerSession_none {order : IterOrder} {peerKey : Bytes} {max : UInt8}
    (nobody : s.capVictim order peerKey max = none) :
    s.evictOldestPeerSession order peerKey max = s := by
  simp only [evictOldestPeerSession, nobody]

/-! ## Frames of the table operations -/

theorem updateTask_tasks_ne {i j : Nat} (f : Task σ → Task σ) (other : i ≠ j) :
    (s.updateTask i f).tasks[j]? = s.tasks[j]? := by
  simp [updateTask, other]

theorem removeSession_frame (owned : s.Owned) {sid gone : SessionId} {h : ClientHandle}
    (other : sid ≠ gone) (found : s.sessions.lookup sid = some h) :
    (s.removeSession gone).sessions.lookup sid = some h ∧
      (s.removeSession gone).tasks[h.task]? = s.tasks[h.task]? := by
  unfold removeSession
  cases isGone : s.sessions.lookup gone with
  | none => exact ⟨found, rfl⟩
  | some g =>
      refine ⟨(AList.lookup_erase_ne other).trans found, updateTask_tasks_ne _ fun same => ?_⟩
      exact other (owned.injective found isGone same.symm)

theorem evictOldestPeerSession_frame (owned : s.Owned) {order : IterOrder} {peerKey : Bytes}
    {max : UInt8} {sid : SessionId} {h : ClientHandle}
    (other : s.capVictim order peerKey max ≠ some sid) (found : s.sessions.lookup sid = some h) :
    (s.evictOldestPeerSession order peerKey max).sessions.lookup sid = some h ∧
      (s.evictOldestPeerSession order peerKey max).tasks[h.task]? = s.tasks[h.task]? := by
  unfold evictOldestPeerSession
  cases victim : s.capVictim order peerKey max with
  | none => exact ⟨found, rfl⟩
  | some gone =>
      rw [victim] at other
      have others : sid ≠ gone := fun same => other (by rw [same])
      cases isGone : s.sessions.lookup gone with
      | none => simpa only [isGone] using removeSession_frame owned others found
      | some g =>
          have signalled : (s.signalEvict g.task).Owned := owned.updateTask fun t => by
            split <;> rfl
          have removed := removeSession_frame signalled others found
          have kept : (s.signalEvict g.task).tasks[h.task]? = s.tasks[h.task]? :=
            updateTask_tasks_ne _ fun same => others (owned.injective found isGone same.symm)
          simp only [isGone]
          exact ⟨removed.1, removed.2.trans kept⟩

theorem spawnClient_frame (owned : s.Owned) (ctx : ServerCtx σ) (env : ServerEnv)
    (carrier : SessionCarrier) (resolved : ResolvedProfile) (established : SessionEstablished UInt8)
    (keystream : Option Bytes) {sid : SessionId} {h : ClientHandle}
    (other : sid ≠ established.sessionId) (found : s.sessions.lookup sid = some h) :
    let s' := s.spawnClient ctx env carrier resolved established keystream
    s'.sessions.lookup sid = some h ∧ s'.tasks[h.task]? = s.tasks[h.task]? := by
  have inside : h.task < s.tasks.length := by
    obtain ⟨t, isTask, -⟩ := owned sid h found
    exact (List.getElem?_eq_some_iff.mp isTask).1
  have appended : Owned { s with tasks :=
    s.tasks ++ [newTask ctx env carrier resolved established] } := by
    intro sid' h' found'
    obtain ⟨t, isTask, own⟩ := owned sid' h' found'
    have inside := (List.getElem?_eq_some_iff.mp isTask).1
    exact ⟨t, (List.getElem?_append_left inside).trans isTask, own⟩
  obtain ⟨-, tasks⟩ := removeSession_frame appended other found
  refine ⟨?_, tasks.trans ?_⟩
  · simp only [spawnClient, insertSession, AList.lookup_insert_ne other]
    exact found
  · exact List.getElem?_append_left inside

theorem spawnClient_lookup (ctx : ServerCtx σ) (env : ServerEnv) (carrier : SessionCarrier)
    (resolved : ResolvedProfile) (established : SessionEstablished UInt8)
    (keystream : Option Bytes) :
    ∃ h, (s.spawnClient ctx env carrier resolved established keystream).sessions.lookup
        established.sessionId = some h ∧ h.task = s.tasks.length :=
  ⟨_, AList.lookup_insert _, rfl⟩

/-! ## The frame of an accepted handshake -/

/-- Every live session is still in the table, with the same handle and an untouched
    task, but for the victim of the cap, which is of the given key. -/
def KeepsSessions (s s' : Server σ) (peerKey : Bytes) (victim : Option SessionId) : Prop :=
  ∀ sid h, s.Live sid h →
    (s'.sessions.lookup sid = some h ∧ s'.tasks[h.task]? = s.tasks[h.task]?) ∨
      (victim = some sid ∧ h.peerKey = peerKey)

/-- An accepted handshake keeps every live session exactly when its id, 32 bits of the
    handshake hash, is not that of a live session that the cap does not evict. -/
theorem acceptHandshake_keeps_iff (reachable : Reachable ctx s) (env : ServerEnv) (msg1 : Bytes)
    (carrier : SessionCarrier) (established : SessionEstablished UInt8)
    (derived : established.sessionId = sessionIdFromHash established.handshakeHash)
    (accepted : (s.acceptHandshake ctx env msg1 carrier established).1 = true) :
    let victim := s.capVictim env.order established.peerStatic ctx.maxSessionsPerPeer
    KeepsSessions s (s.acceptHandshake ctx env msg1 carrier established).2 established.peerStatic
      victim ↔ ∀ h, s.Live (sessionIdFromHash established.handshakeHash) h →
        victim = some (sessionIdFromHash established.handshakeHash) := by
  intro victim
  have owned := reachable.owned
  rw [← derived]
  simp only [acceptHandshake] at accepted ⊢
  cases resolve : ResolvedProfile.withHandshakeTransport established.selection
      ctx.profile.handshakeTransport with
  | error e => simp [resolve] at accepted
  | ok resolved =>
      simp only
      constructor
      · intro keeps h live
        rcases keeps _ h live with ⟨still, -⟩ | ⟨evicted, -⟩
        · -- the new handle has a task that the table did not know
          have evicted := evictOldestPeerSession_evolves ctx .any s env.order established.peerStatic
            ctx.maxSessionsPerPeer
          obtain ⟨h', registered, fresh⟩ := spawnClient_lookup
            (s := s.evictOldestPeerSession env.order established.peerStatic ctx.maxSessionsPerPeer)
            ctx env carrier resolved established
            (extractHeaderXorKeystream ctx established.handshakeHash resolved.codec.maxHeaderLen)
          cases registered.symm.trans still
          obtain ⟨t, isTask, -⟩ := owned _ h live.1
          have inside := (List.getElem?_eq_some_iff.mp isTask).1
          have longer := evicted.length_le
          omega
        · exact evicted
      · intro unused sid h live
        by_cases evicted : victim = some sid
        · obtain ⟨h', found, key, -⟩ := capVictim_spec evicted
          cases found.symm.trans live.1
          exact .inr ⟨evicted, key⟩
        · have other : sid ≠ established.sessionId := by
            rintro rfl
            exact evicted (unused h live)
          obtain ⟨found, task⟩ := evictOldestPeerSession_frame owned evicted live.1
          have after := owned.evolves (evictOldestPeerSession_evolves ctx .any s env.order
            established.peerStatic ctx.maxSessionsPerPeer)
          obtain ⟨found', task'⟩ := spawnClient_frame after ctx env carrier resolved established
            (extractHeaderXorKeystream ctx established.handshakeHash resolved.codec.maxHeaderLen)
              other found
          exact .inl ⟨found', task'.trans task⟩

/-- A session with the given handshake hash. -/
def sessionWithHash (hash : Bytes) (peer : SocketAddr) : SessionEstablished UInt8 where
  peer := peer
  sessionId := sessionIdFromHash hash
  sendKey := List.replicate 32 1
  recvKey := List.replicate 32 2
  sendDir := .responderToInitiator
  recvDir := .initiatorToResponder
  peerStatic := List.replicate 32 10
  peerLabel := none
  handshakeHash := hash
  selection := .defaults

/-- One client connects. -/
def connectOnce : List ServerEvent :=
  [.dispatcher (.small 1 5) (.datagram (smallMessage1 9 3) ⟨.v4 1, 1⟩)]

/-- A server with the session of one client. -/
def oneClient : Server Unit :=
  (Runs.run (step (.small .udp 0)) (init 0 .openMode) connectOnce).getD (init 0 .openMode)

/-- The session of one client is dropped for that of another client whose hash has the
    same first four bytes. -/
theorem oneClient_overwritten :
    let ctx := ServerCtx.small .udp 0
    let env := ServerEnv.small 2 6
    let established := sessionWithHash (List.replicate 32 5) ⟨.v4 2, 1⟩
    Reachable ctx oneClient ∧ (oneClient.acceptHandshake ctx env [] .shared established).1 =
      true ∧ ¬ KeepsSessions oneClient
      (oneClient.acceptHandshake ctx env [] .shared established).2 established.peerStatic
      (oneClient.capVictim env.order established.peerStatic 0) := by
  refine ⟨⟨0, .openMode, connectOnce, rfl⟩, by decide, fun keeps => ?_⟩
  obtain ⟨h, live, first⟩ : ∃ h, oneClient.Live 84215045 h ∧ h.task = 0 :=
    ⟨_, ⟨rfl, by decide⟩, rfl⟩
  rcases keeps 84215045 h live with ⟨still, -⟩ | ⟨evicted, -⟩
  · have second := congrArg (Option.map ClientHandle.task) still
    rw [Option.map_some, first] at second
    exact absurd second (by decide)
  · exact absurd evicted (by decide)

/-- With another hash the session of the first client is kept. -/
theorem oneClient_kept :
    let ctx := ServerCtx.small .udp 0
    let env := ServerEnv.small 2 6
    let established := sessionWithHash (List.replicate 32 6) ⟨.v4 2, 1⟩
    (oneClient.acceptHandshake ctx env [] .shared established).1 = true ∧
      KeepsSessions oneClient (oneClient.acceptHandshake ctx env [] .shared established).2
        established.peerStatic (oneClient.capVictim env.order established.peerStatic 0) := by
  have unknown : oneClient.sessions.lookup 101058054 = none := by decide
  refine ⟨by decide, ?_⟩
  refine (acceptHandshake_keeps_iff ⟨0, .openMode, connectOnce, rfl⟩ _ _ _ _ rfl
    (by decide)).mpr ?_
  intro h live
  cases unknown.symm.trans live.1

end Rustnies.Server
