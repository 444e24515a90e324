import Rustnies.Server.Signals

/-! # Revoking a key

`handle_revoke` of `ipc/mod.rs`. A revocation is a task of its own: it puts the key on
the denylist, sends a command to the dispatcher, waits for its answer and replies. The
daemon is the server with the revocations under way and the dispatcher's command
channel; every step of every party is an event.
-/

namespace Rustnies

variable {σ : Type}

/-- The capacity of the command channel. -/
def CONTROL_CHAN : Nat := 16

inductive Response where
  | ack (text : String)
  | error (text : String)
  deriving Repr, DecidableEq

/-- Where a revocation stands. -/
inductive RevokeState where
  | arrived
  /-- The key is on the denylist, and the command is not yet sent. -/
  | denylisted (key : Bytes)
  | queued (key : Bytes)
  | replied (response : Response)
  deriving Repr, DecidableEq

structure RevokeRequest where
  publicKey : String
  state : RevokeState := .arrived
  /-- The dispatcher's answer: how many sessions it signalled. -/
  evicted : Option Nat := none
  deriving Repr, DecidableEq

namespace RevokeRequest

/-- The 32 bytes that the request names. -/
def key (r : RevokeRequest) : Option Bytes :=
  (hexDecode (trim r.publicKey).toList).filter fun bytes => bytes.length = 32

/-- The denylist is changed, and the reply is not given yet. -/
def UnderWay (r : RevokeRequest) (key : Bytes) : Prop :=
  r.state = .denylisted key ∨ r.state = .queued key

/-- The denylist is changed, and the dispatcher has not answered yet. -/
def Waiting (r : RevokeRequest) (key : Bytes) : Prop :=
  r.state = .denylisted key ∨ (r.state = .queued key ∧ r.evicted = none)

end RevokeRequest

/-- A command in the channel; a revocation is answered. -/
inductive QueuedCommand where
  | revoke (request : Nat) (key : Bytes)
  | other (command : Server.ControlCommand)
  deriving Repr, DecidableEq

def QueuedCommand.command : QueuedCommand → Server.ControlCommand
  | .revoke _ key => .revoke key
  | .other command => command

structure Daemon (σ : Type) where
  server : Server σ
  control : List QueuedCommand := []
  requests : List RevokeRequest := []

inductive DaemonEvent where
  /-- A step of the server other than its command branch. -/
  | server (e : ServerEvent)
  /-- An operator asks to revoke a key. -/
  | request (publicKey : String)
  /-- The next step of a revocation. -/
  | operator (request : Nat)
  /-- A list or disconnect command is sent. -/
  | command (command : Server.ControlCommand)
  /-- The dispatcher takes a command from the channel. -/
  | control (env : ServerEnv)

namespace Daemon

def init (now : Instant) (peerAuth : PeerAuth) : Daemon σ where
  server := .init now peerAuth

def setState (d : Daemon σ) (i : Nat) (state : RevokeState) : Daemon σ :=
  { d with requests := d.requests.modify i fun r => { r with state := state } }

/-- The next step of a revocation; `none` is one that waits. -/
def operate (d : Daemon σ) (i : Nat) (r : RevokeRequest) : Option (Daemon σ) :=
  match r.state with
  | .arrived =>
      match r.key with
      | none => some (d.setState i (.replied (.error "invalid public key: must be 32-byte hex")))
      | some key =>
          if d.server.peerAuth.isRevoked key then
            let publicKey := r.publicKey
            some (d.setState i (.replied (.ack s!"peer key {publicKey} already revoked")))
          else
            let d := { d with server := { d.server with peerAuth := d.server.peerAuth.revoke key } }
            some (d.setState i (.denylisted key))
  | .denylisted key =>
      if d.server.stopped then some (d.setState i (.replied (.error "dispatcher is not running")))
      else if d.control.length < CONTROL_CHAN then
        some (({ d with control := d.control ++ [.revoke i key] } : Daemon σ).setState i
          (.queued key))
      else none
  | .queued _ =>
      match r.evicted with
      | some count =>
          some (d.setState i (.replied (.ack s!"revoked; {count} active session(s) evicted")))
      | none =>
          if d.server.stopped then
            some (d.setState i
              (.replied (.error "dispatcher dropped the response (shutdown in progress?)")))
          else none
  | .replied _ => none

/-- The dispatcher's answer to a command. -/
def answer (d : Daemon σ) (before : Server σ) : QueuedCommand → Daemon σ
  | .revoke i key => { d with
      requests := d.requests.modify i fun r => { r with
        evicted := some (before.sessions.entries.filter fun e => e.2.peerKey == key).length } }
  | .other _ => d

variable (ctx : ServerCtx σ)

def step (d : Daemon σ) : DaemonEvent → Option (Daemon σ)
  | .server (.dispatcher _ (.control _)) => none
  | .server (.auth (.revoke _)) => none
  | .server e => (d.server.step ctx e).map fun server => { d with server := server }
  | .request publicKey => some { d with requests := d.requests ++ [{ publicKey := publicKey }] }
  | .operator i =>
      match d.requests[i]? with
      | none => none
      | some r => d.operate i r
  | .command (.revoke _) => none
  | .command command =>
      if d.control.length < CONTROL_CHAN
        then some { d with control := d.control ++ [.other command] } else none
  | .control env =>
      match d.control with
      | [] => none
      | c :: rest => (d.server.step ctx (.dispatcher env (.control c.command))).map fun server =>
          ({ d with server := server, control := rest } : Daemon σ).answer d.server c

end Daemon

/-! ## Signals -/

namespace Server

variable {ctx : ServerCtx σ} {scope : Scope} {s s' : Server σ} {key : Bytes}

/-- Every session of the key has been asked to close. -/
def AllSignalled (s : Server σ) (key : Bytes) : Prop :=
  ∀ sid h, s.sessions.lookup sid = some h → h.peerKey = key → s.Signalled h.task

/-- What every reachable server keeps. -/
structure Kept (s : Server σ) : Prop where
  owned : s.Owned
  closedEnded : s.ClosedEnded
  stopped : s.stopped = true → ∀ sid, s.sessions.lookup sid = none

theorem AllSignalled.evolves (all : s.AllSignalled key) (evolves : Evolves ctx scope s s')
    (refused : ¬ scope.admits key) : s'.AllSignalled key := by
  intro sid h' found owner
  rcases evolves.sessions found with ⟨h, found₀, moves⟩ | ⟨-, -, admitted, -⟩
  · rw [HandleMoves.task moves]
    exact (all sid h found₀ (by rw [← owner, HandleMoves.peerKey moves])).evolves evolves
  · rw [owner] at admitted
    exact absurd admitted refused

theorem signalAll_sessions (s : Server σ)
    (victims : List (Sigma fun _ : SessionId => ClientHandle)) :
    (s.signalAll victims).sessions = s.sessions := by
  induction victims generalizing s with
  | nil => rfl
  | cons e victims ih => exact ih (s.signalEvict e.2.task)

theorem signalAll_signalled (ctx : ServerCtx σ)
    (victims : List (Sigma fun _ : SessionId => ClientHandle)) (ended : s.ClosedEnded)
    {e : Sigma fun _ : SessionId => ClientHandle}
    (member : e ∈ victims) {t : Task σ} (isTask : s.tasks[e.2.task]? = some t) :
    (s.signalAll victims).Signalled e.2.task := by
  induction victims generalizing s t with
  | nil => cases member
  | cons first victims ih =>
      have evolves := signalEvict_evolves ctx .any s first.2.task
      rcases List.mem_cons.mp member with rfl | later
      · exact (signalEvict_signalled isTask (ended _ t isTask)).evolves
          (signalAll_evolves ctx .any _ victims)
      · obtain ⟨t', isTask', -⟩ := evolves.tasks isTask
        exact ih (ended.evolves evolves) later isTask'

/-- The dispatcher's answer to a revocation comes after every session of the key has
    been asked. -/
theorem evictSessionsForKey_signalled (ctx : ServerCtx σ) (kept : s.Kept) (key : Bytes) :
    (s.evictSessionsForKey key).AllSignalled key := by
  intro sid h found owner
  rw [evictSessionsForKey, signalAll_sessions] at found
  obtain ⟨t, isTask, -⟩ := kept.owned sid h found
  have member : (⟨sid, h⟩ : Sigma fun _ : SessionId => ClientHandle) ∈
      s.sessions.entries.filter fun e => e.2.peerKey == key :=
    List.mem_filter.mpr ⟨AList.mem_lookup_iff.mp found, beq_iff_eq.mpr owner⟩
  exact signalAll_signalled ctx _ kept.closedEnded member isTask

/-- A key on the denylist is let in only in open mode. -/
theorem isOpenMode_of_admits (admits : s.Admits key) (revoked : s.peerAuth.isRevoked key = true) :
    s.peerAuth.isOpenMode = true := by
  rcases admits with isOpen | passed
  · exact isOpen
  · rw [PeerAuth.check, if_pos revoked] at passed
    cases passed

/-- Only the operators and a reload change the denylist. -/
theorem step_denylist {e : ServerEvent} (stepped : s.step ctx e = some s')
    (other : ∀ key, e ≠ .auth (.revoke key) ∧ e ≠ .auth (.unrevoke key)) :
    s'.peerAuth.denylist = s.peerAuth.denylist := by
  by_cases governs : Governs e
  · cases e with
    | dispatcher env branch =>
        obtain ⟨-, ⟨-, branched⟩ | ⟨n, rfl, -⟩⟩ := step_dispatcher_cases ctx s stepped
        · cases branch with
          | stop requested =>
              cases branched
              split <;> rfl
          | tunError =>
              cases branched
              rfl
          | _ => cases governs
        · cases governs
    | auth change =>
        cases stepped
        cases change with
        | revoke key => exact absurd rfl (other key).1
        | unrevoke key => exact absurd rfl (other key).2
        | setPeers peers => rfl
        | setOpen => rfl
    | _ => cases governs
  · have evolves := step_evolves ctx { Scope.any with governs := False } s stepped
      ⟨fun _ _ => trivial, fun _ _ _ _ => trivial, fun _ _ _ _ _ => trivial, governs⟩
    rw [(evolves.governed id).2]

theorem Kept.init (now : Instant) (peerAuth : PeerAuth) : (init now peerAuth : Server σ).Kept where
  owned sid h found := by
    rw [Server.init, AList.lookup_empty] at found
    cases found
  closedEnded i t isTask := by cases isTask
  stopped isStopped := by cases isStopped

theorem Kept.step {e : ServerEvent} (kept : s.Kept) (stepped : s.step ctx e = some s') :
    s'.Kept := by
  have evolves := step_evolves ctx .any s stepped (allows_any ctx s e)
  refine ⟨kept.owned.evolves evolves, kept.closedEnded.evolves evolves, fun isStopped sid => ?_⟩
  by_cases governs : Governs e
  · cases e with
    | dispatcher env branch =>
        obtain ⟨going, ⟨-, branched⟩ | ⟨n, rfl, -⟩⟩ :=
          step_dispatcher_cases ctx s stepped
        · cases branch with
          | stop requested =>
              cases requested with
              | true =>
                  cases branched
                  exact AList.lookup_empty sid
              | false =>
                  cases branched
                  exact absurd isStopped (by simp [going])
          | tunError =>
              cases branched
              exact AList.lookup_empty sid
          | _ => cases governs
        · cases governs
    | auth change =>
        cases stepped
        exact kept.stopped isStopped sid
    | _ => cases governs
  · -- a step that governs nothing leaves a stopped server without sessions
    have calm := step_evolves ctx ⟨True, True, fun _ => s.stopped = false, False⟩ s stepped
      ⟨fun _ _ => trivial, fun _ _ _ _ => trivial, fun msg1 _ tries _ _ => ?_, governs⟩
    · rw [(calm.governed id).1] at isStopped
      cases found : s'.sessions.lookup sid with
      | none => rfl
      | some h =>
          rcases calm.sessions found with ⟨h₀, found₀, -⟩ | ⟨-, -, running, -⟩
          · rw [kept.stopped isStopped sid] at found₀
            cases found₀
          · rw [isStopped] at running
            cases running
    · cases e with
      | dispatcher env branch => exact (step_dispatcher_cases ctx s stepped).1
      | _ => cases tries

end Server

/-! ## What the daemon keeps -/

namespace Daemon

variable {ctx : ServerCtx σ} {d d' : Daemon σ} {key : Bytes}

/-- The key is on the denylist, and no revocation of it waits for the dispatcher. -/
def Settled (d : Daemon σ) (key : Bytes) : Prop :=
  d.server.peerAuth.isRevoked key = true ∧ ∀ (i : Nat) (r : RevokeRequest),
    d.requests[i]? = some r → ¬ r.Waiting key

/-- The revocations and the server agree: every session of a settled key has been asked
    to close. -/
structure Sound (d : Daemon σ) : Prop where
  kept : d.server.Kept
  named : ∀ (i : Nat) (r : RevokeRequest) key, d.requests[i]? = some r → r.UnderWay key →
    r.key = some key ∧ d.server.peerAuth.isRevoked key = true
  unanswered : ∀ (i : Nat) (r : RevokeRequest) key, d.requests[i]? = some r →
    r.state = .arrived ∨ r.state = .denylisted key → r.evicted = none
  single : ∀ (i j : Nat) (r r' : RevokeRequest) key, d.requests[i]? = some r → d.requests[j]? =
    some r' → r.UnderWay key → r'.UnderWay key → i = j
  queued : ∀ (i : Nat) key, .revoke i key ∈ d.control →
    ∃ r, d.requests[i]? = some r ∧
    (r.state = .queued key ∨ ∃ response, r.state = .replied response)
  settled : ∀ key, d.Settled key → d.server.AllSignalled key

theorem getElem?_modify_cases {requests : List RevokeRequest} {i j : Nat} {r q : RevokeRequest}
    {f : RevokeRequest → RevokeRequest} (isRequest : requests[i]? = some r)
    (found : (requests.modify i f)[j]? = some q) :
    (j ≠ i ∧ requests[j]? = some q) ∨ (j = i ∧ q = f r) := by
  by_cases here : i = j
  · subst here
    rw [List.getElem?_modify_eq, isRequest] at found
    cases found
    exact .inr ⟨rfl, rfl⟩
  · rw [List.getElem?_modify_ne f requests here] at found
    exact .inl ⟨fun same => here same.symm, found⟩

theorem Sound.modify (sound : d.Sound) {i : Nat} {r : RevokeRequest}
    (isRequest : d.requests[i]? = some r) {f : RevokeRequest → RevokeRequest} {server : Server σ}
    {control : List QueuedCommand} (kept : server.Kept)
    (peers : server.peerAuth = d.server.peerAuth) (name : (f r).key = r.key)
    (under : ∀ k, (f r).UnderWay k → r.UnderWay k)
    (unanswered : ∀ k, (f r).state = .arrived ∨ (f r).state = .denylisted k → (f r).evicted =
      none) (queued : ∀ j k, .revoke j k ∈ control → .revoke j k ∈ d.control ∨
      (j = i ∧ (f r).state = .queued k))
    (stays : ∀ k, r.state = .queued k → (f r).state = .queued k ∨ ∃ response,
      (f r).state = .replied response)
    (ends : ∀ response, r.state = .replied response → (f r).state = .replied response)
    (settled : ∀ k, d.server.peerAuth.isRevoked k = true → r.Waiting k → ¬ (f r).Waiting
      k → server.AllSignalled k)
    (others : ∀ k, d.server.AllSignalled k → server.AllSignalled k) :
    (⟨server, control, d.requests.modify i f⟩ : Daemon σ).Sound := by
  have before : ∀ (j : Nat) (q : RevokeRequest) k, (d.requests.modify i f)[j]? =
    some q → q.UnderWay k → ∃ q₀ : RevokeRequest, d.requests[j]? = some q₀ ∧
    q₀.UnderWay k ∧ q₀.key = q.key := by
    intro j q k found underWay
    rcases getElem?_modify_cases isRequest found with ⟨-, same⟩ | ⟨rfl, rfl⟩
    · exact ⟨q, same, underWay, rfl⟩
    · exact ⟨r, isRequest, under k underWay, name.symm⟩
  have here : (d.requests.modify i f)[i]? = some (f r) := by
    rw [List.getElem?_modify_eq, isRequest]
    rfl
  refine ⟨kept, ?_, ?_, ?_, ?_, ?_⟩
  · intro j q k found underWay
    obtain ⟨q₀, found₀, underWay', name⟩ := before j q k found underWay
    rw [← name, peers]
    exact sound.named j q₀ k found₀ underWay'
  · intro j q k found early
    rcases getElem?_modify_cases isRequest found with ⟨-, same⟩ | ⟨-, rfl⟩
    · exact sound.unanswered j q k same early
    · exact unanswered k early
  · intro j l q q' k found found' underWay underWay'
    obtain ⟨q₀, found₀, under, -⟩ := before j q k found underWay
    obtain ⟨q₁, found₁, under', -⟩ := before l q' k found' underWay'
    exact sound.single j l q₀ q₁ k found₀ found₁ under under'
  · intro j k member
    rcases queued j k member with old | ⟨rfl, state⟩
    · obtain ⟨q, found, state⟩ := sound.queued j k old
      by_cases same : i = j
      · subst same
        rw [isRequest] at found
        cases found
        refine ⟨f r, here, ?_⟩
        rcases state with state | ⟨response, state⟩
        · exact stays k state
        · exact .inr ⟨response, ends response state⟩
      · exact ⟨q, by simp [same, found], state⟩
    · exact ⟨f r, here, .inl state⟩
  · rintro k ⟨revoked, none⟩
    rw [peers] at revoked
    by_cases waits : r.Waiting k
    · exact settled k revoked waits (none i (f r) here)
    · refine others k (sound.settled k ⟨revoked, fun j q found waiting => ?_⟩)
      by_cases same : i = j
      · subst same
        rw [isRequest] at found
        cases found
        exact waits waiting
      · exact none j q (by simp [same, found]) waiting

theorem Sound.reply (sound : d.Sound) {i : Nat} {r : RevokeRequest}
    (isRequest : d.requests[i]? = some r) (response : Response)
    (going : ∀ response', r.state ≠ .replied response')
    (asked : ∀ key, r.Waiting key → d.server.AllSignalled key) :
    (d.setState i (.replied response)).Sound := by
  refine sound.modify isRequest sound.kept rfl rfl ?_ ?_ (fun _ _ => .inl)
    (fun _ _ => .inr ⟨response, rfl⟩)
    (fun response' replied => absurd replied (going response')) (fun k _ waits _ => asked k waits)
    fun _ => id
  · rintro k (state | state) <;> cases state
  · rintro k (state | state) <;> cases state

theorem Sound.enqueue (sound : d.Sound) {i : Nat} {r : RevokeRequest}
    (isRequest : d.requests[i]? = some r) (denylisted : r.state = .denylisted key) :
    (({ d with control := d.control ++ [.revoke i key] } : Daemon σ).setState i
      (.queued key)).Sound := by
  have silent := sound.unanswered i r key isRequest (.inr denylisted)
  refine sound.modify isRequest sound.kept rfl rfl ?_ ?_ ?_ ?_ ?_ ?_ fun _ => id
  · rintro k (state | state)
    · cases state
    · cases state
      exact .inl denylisted
  · exact fun _ _ => silent
  · intro j k member
    rcases List.mem_append.mp member with old | last
    · exact .inl old
    · cases List.mem_singleton.mp last
      exact .inr ⟨rfl, rfl⟩
  · intro k state
    rw [denylisted] at state
    cases state
  · intro response state
    rw [denylisted] at state
    cases state
  · intro k _ waits quiet
    rw [RevokeRequest.Waiting, denylisted] at waits
    rcases waits with state | ⟨state, -⟩
    · cases state
      exact absurd (.inr ⟨rfl, silent⟩) quiet
    · cases state

theorem Sound.answered (sound : d.Sound) {server : Server σ} {i : Nat} {rest : List QueuedCommand}
    (queue : d.control = .revoke i key :: rest) (kept : server.Kept)
    (peers : server.peerAuth = d.server.peerAuth) (asked : server.AllSignalled key)
    (others : ∀ k, d.server.AllSignalled k → server.AllSignalled k) (count : Nat) :
    ({ d with
      server := server
      control := rest
      requests := d.requests.modify i fun r => { r with evicted := some count } } :
        Daemon σ).Sound := by
  obtain ⟨r, isRequest, state⟩ := sound.queued i key (by rw [queue]; exact List.mem_cons_self)
  refine sound.modify isRequest kept peers rfl (fun _ => id) ?_ ?_ (fun _ => .inl)
    (fun _ => id) ?_ others
  · intro k early
    rcases state with state | ⟨response, state⟩
    · rw [state] at early
      rcases early with early | early <;> cases early
    · rw [state] at early
      rcases early with early | early <;> cases early
  · intro j k member
    rw [queue]
    exact .inl (List.mem_cons_of_mem _ member)
  · intro k _ waits _
    rcases state with state | ⟨response, state⟩
    · rw [RevokeRequest.Waiting, state] at waits
      rcases waits with waits | ⟨waits, -⟩
      · cases waits
      · cases waits
        exact asked
    · rw [RevokeRequest.Waiting, state] at waits
      rcases waits with waits | ⟨waits, -⟩ <;> cases waits

theorem isRevoked_revoke {auth : PeerAuth} {key k : Bytes} :
    (auth.revoke key).isRevoked k = true ↔ k = key ∨ auth.isRevoked k = true := by
  simp [PeerAuth.isRevoked, PeerAuth.revoke]

theorem Sound.denylist (sound : d.Sound) {i : Nat} {r : RevokeRequest}
    (isRequest : d.requests[i]? = some r) (arrived : r.state = .arrived) (named : r.key = some key)
    (new : d.server.peerAuth.isRevoked key ≠ true) :
    (({ d with server := { d.server with peerAuth := d.server.peerAuth.revoke key } } :
      Daemon σ).setState i (.denylisted key)).Sound := by
  have nobody : ∀ (j : Nat) (q : RevokeRequest), d.requests[j]? = some q → ¬ q.UnderWay key :=
    fun j q found underWay => new (sound.named j q key found underWay).2
  refine ⟨⟨sound.kept.owned, sound.kept.closedEnded, sound.kept.stopped⟩, ?_,
    ?_, ?_, ?_, ?_⟩
  · intro j q k found underWay
    rcases getElem?_modify_cases isRequest found with ⟨-, before⟩ | ⟨-, rfl⟩
    · obtain ⟨name, revoked⟩ := sound.named j q k before underWay
      exact ⟨name, isRevoked_revoke.mpr (.inr revoked)⟩
    · rcases underWay with state | state
      · cases state
        exact ⟨named, isRevoked_revoke.mpr (.inl rfl)⟩
      · cases state
  · intro j q k found early
    rcases getElem?_modify_cases isRequest found with ⟨-, before⟩ | ⟨-, rfl⟩
    · exact sound.unanswered j q k before early
    · exact sound.unanswered i r key isRequest (.inl arrived)
  · intro j l q q' k found found' underWay underWay'
    rcases getElem?_modify_cases isRequest found with ⟨-, before⟩ | ⟨rfl, rfl⟩
    · rcases getElem?_modify_cases isRequest found' with ⟨-, before'⟩ | ⟨rfl, rfl⟩
      · exact sound.single j l q q' k before before' underWay underWay'
      · rcases underWay' with state | state
        · cases state
          exact absurd underWay (nobody j q before)
        · cases state
    · rcases getElem?_modify_cases isRequest found' with ⟨-, before'⟩ | ⟨rfl, -⟩
      · rcases underWay with state | state
        · cases state
          exact absurd underWay' (nobody l q' before')
        · cases state
      · rfl
  · intro j k member
    obtain ⟨q, found, state⟩ := sound.queued j k member
    by_cases here : i = j
    · subst here
      rw [isRequest] at found
      cases found
      rw [arrived] at state
      rcases state with state | ⟨response, state⟩ <;> cases state
    · exact ⟨q, by simp [setState, here, found], state⟩
  · rintro k ⟨revoked, none⟩
    rcases isRevoked_revoke.mp revoked with rfl | before
    · refine absurd (.inl rfl) (none i { r with state := .denylisted k } ?_)
      simp [setState, isRequest]
    · refine sound.settled k ⟨before, fun j q found waiting => ?_⟩
      by_cases here : i = j
      · subst here
        rw [isRequest] at found
        cases found
        rw [RevokeRequest.Waiting, arrived] at waiting
        rcases waiting with state | ⟨state, -⟩ <;> cases state
      · exact none j q (by simp [setState, here, found]) waiting

theorem Sound.init (now : Instant) (peerAuth : PeerAuth) :
    (init now peerAuth : Daemon σ).Sound where
  kept := .init now peerAuth
  named i r key found := by cases found
  unanswered i r key found := by cases found
  single i j r r' key found := by cases found
  queued i key member := by cases member
  settled key _ sid h found := by
    rw [Daemon.init, Server.init, AList.lookup_empty] at found
    cases found

variable (ctx) in
/-- The condition on a step: a revocation that finds its key on the denylist finds no
    other one waiting, a key is not taken off the denylist while it is being revoked, and
    in open mode no message 1 of a key on the denylist arrives. -/
def Meets (d : Daemon σ) : DaemonEvent → Prop
  | .operator i => ∀ r key,
      d.requests[i]? = some r → r.state = .arrived → r.key = some key →
      d.server.peerAuth.isRevoked key = true → ∀ (j : Nat) (q : RevokeRequest),
      d.requests[j]? = some q → ¬ q.Waiting key
  | .server (.auth (.unrevoke key)) =>
      ∀ (j : Nat) (q : RevokeRequest), d.requests[j]? = some q → ¬ q.UnderWay key
  | .server e => d.server.peerAuth.isOpenMode = true → ∀ msg1 key, d.server.Tries msg1 e →
      Server.readsAs ctx msg1 = some key → d.server.peerAuth.isRevoked key = false
  | _ => True

theorem isRevoked_congr {auth auth' : PeerAuth} (same : auth'.denylist = auth.denylist)
    (key : Bytes) :
    auth'.isRevoked key = auth.isRevoked key := by
  rw [PeerAuth.isRevoked, PeerAuth.isRevoked, same]

theorem isRevoked_unrevoke {auth : PeerAuth} {key k : Bytes} :
    (auth.unrevoke key).isRevoked k = true ↔ k ≠ key ∧ auth.isRevoked k = true := by
  simp [PeerAuth.isRevoked, PeerAuth.unrevoke, and_comm]

theorem allSignalled_step {e : ServerEvent} {server : Server σ}
    (stepped : d.server.step ctx e = some server)
    (refused : ∀ msg1, d.server.Tries msg1 e → Server.readsAs ctx msg1 =
      some key → ¬ d.server.Admits key) (all : d.server.AllSignalled key) :
    server.AllSignalled key := by
  refine all.evolves (Server.step_evolves ctx ⟨True, True, (· ≠ key), True⟩ _ stepped
    ⟨fun _ _ => trivial, fun _ _ _ _ => trivial, fun msg1 k tries reads admits => ?_, fun _ =>
    trivial⟩) (fun differs => differs rfl)
  rintro rfl
  exact refused msg1 tries reads admits

theorem Sound.server (sound : d.Sound) {e : ServerEvent} {server : Server σ}
    (stepped : d.server.step ctx e = some server) (denies : ∀ key, e ≠ .auth (.revoke key))
    (meets : d.Meets ctx (.server e)) : ({ d with server := server } : Daemon σ).Sound := by
  have kept := sound.kept.step stepped
  by_cases lifts : ∃ key, e = .auth (.unrevoke key)
  · obtain ⟨key, rfl⟩ := lifts
    cases stepped
    refine ⟨kept, fun i r k found underWay => ?_, sound.unanswered, sound.single,
      sound.queued, ?_⟩
    · obtain ⟨name, revoked⟩ := sound.named i r k found underWay
      refine ⟨name, isRevoked_unrevoke.mpr ⟨?_, revoked⟩⟩
      rintro rfl
      exact meets i r found underWay
    · rintro k ⟨revoked, none⟩
      exact sound.settled k ⟨(isRevoked_unrevoke.mp revoked).2, none⟩
  · have same :=
      isRevoked_congr (Server.step_denylist stepped fun key =>
      ⟨denies key, fun is => lifts ⟨key, is⟩⟩)
    have closed : d.server.peerAuth.isOpenMode = true → ∀ msg1 key, d.server.Tries msg1 e →
        Server.readsAs ctx msg1 = some key → d.server.peerAuth.isRevoked key = false := by
      intro isOpen msg1 key tries
      cases e with
      | dispatcher env branch => exact meets isOpen msg1 key tries
      | _ => cases tries
    refine ⟨kept, fun i r k found underWay => ?_, sound.unanswered, sound.single,
      sound.queued, ?_⟩
    · simp only [same k]
      exact sound.named i r k found underWay
    · rintro k ⟨revoked, none⟩
      rw [same k] at revoked
      refine allSignalled_step stepped (fun msg1 tries reads admits => ?_)
        (sound.settled k ⟨revoked, none⟩)
      have := closed (Server.isOpenMode_of_admits admits revoked) msg1 k tries reads
      rw [revoked] at this
      cases this

theorem not_waiting_arrived {r : RevokeRequest} (arrived : r.state = .arrived) :
    ¬ r.Waiting key := by
  rw [RevokeRequest.Waiting, arrived]
  rintro (state | ⟨state, -⟩) <;> cases state

theorem Sound.allSignalled_of_stopped (sound : d.Sound) (stopped : d.server.stopped = true) :
    d.server.AllSignalled key := by
  intro sid h found
  rw [sound.kept.stopped stopped sid] at found
  cases found

/-- A revocation replies, goes on the denylist or sends its command. One that waits for
    the dispatcher replies only when there is none, and an acknowledgement is given for a
    key on the denylist, or after the dispatcher's answer. -/
theorem operate_cases {i : Nat} {r : RevokeRequest} (operated : d.operate i r = some d') :
    (∃ response, d' = d.setState i (.replied response) ∧
      (∀ response', r.state ≠ .replied response') ∧
      (∀ key, r.Waiting key → d.server.stopped = true) ∧
      ∀ text, response = .ack text →
        (r.state = .arrived ∧ ∃ key, r.key = some key ∧ d.server.peerAuth.isRevoked key =
          true) ∨ (∃ key count, r.state = .queued key ∧ r.evicted = some count)) ∨
    (∃ key, r.state = .arrived ∧ r.key = some key ∧ d.server.peerAuth.isRevoked key ≠
      true ∧ d' = ({ d with server :=
      { d.server with peerAuth := d.server.peerAuth.revoke key } } : Daemon σ).setState i
      (.denylisted key)) ∨
    (∃ key, r.state = .denylisted key ∧
      d' = ({ d with control := d.control ++ [.revoke i key] } : Daemon σ).setState i
        (.queued key)) := by
  unfold Daemon.operate at operated
  cases state : r.state with
  | arrived =>
      have quiet : ∀ key, r.Waiting key → d.server.stopped = true := fun key waits =>
        absurd waits (not_waiting_arrived state)
      cases named : r.key with
      | none =>
          simp only [state, named, Option.some.injEq] at operated
          exact .inl ⟨_, operated.symm, fun _ => RevokeState.noConfusion, quiet, fun _ =>
            Response.noConfusion⟩
      | some key =>
          simp only [state, named] at operated
          split at operated
          · rename_i revoked
            cases operated
            exact .inl ⟨_, rfl, fun _ => RevokeState.noConfusion, quiet, fun _ _ =>
              .inl ⟨rfl, key, rfl, revoked⟩⟩
          · rename_i new
            cases operated
            exact .inr (.inl ⟨key, rfl, rfl, new, rfl⟩)
  | denylisted key =>
      simp only [state] at operated
      split at operated
      · rename_i stopped
        cases operated
        exact .inl ⟨_, rfl, fun _ => RevokeState.noConfusion, fun _ _ => stopped, fun _ =>
          Response.noConfusion⟩
      · rw [Option.ite_none_right_eq_some] at operated
        cases operated.2
        exact .inr (.inr ⟨key, rfl, rfl⟩)
  | queued key =>
      cases answered : r.evicted with
      | some count =>
          simp only [state, answered, Option.some.injEq] at operated
          refine .inl ⟨_, operated.symm, fun _ => RevokeState.noConfusion, fun k waits => ?_,
            fun _ _ => .inr ⟨key, count, rfl, rfl⟩⟩
          rw [RevokeRequest.Waiting, state, answered] at waits
          rcases waits with waits | ⟨-, waits⟩ <;> cases waits
      | none =>
          simp only [state, answered, Option.ite_none_right_eq_some, Option.some.injEq] at operated
          exact .inl ⟨_, operated.2.symm, fun _ => RevokeState.noConfusion, fun _ _ => operated.1,
            fun _ => Response.noConfusion⟩
  | replied response =>
      simp only [state] at operated
      cases operated

theorem Sound.operate (sound : d.Sound) {i : Nat} {r : RevokeRequest}
    (isRequest : d.requests[i]? = some r) (operated : d.operate i r = some d') : d'.Sound := by
  rcases operate_cases operated with ⟨response, rfl, going, stops, -⟩ | ⟨key, arrived, named,
    new, rfl⟩ | ⟨key, denylisted, rfl⟩
  · exact sound.reply isRequest response going fun key waits =>
      sound.allSignalled_of_stopped (stops key waits)
  · exact sound.denylist isRequest arrived named new
  · exact sound.enqueue isRequest denylisted

theorem Sound.control (sound : d.Sound) {env : ServerEnv} {c : QueuedCommand}
    {rest : List QueuedCommand} (queue : d.control = c :: rest) {server : Server σ}
    (stepped : d.server.step ctx (.dispatcher env (.control c.command)) = some server) :
    (({ d with server := server, control := rest } : Daemon σ).answer d.server c).Sound := by
  have kept := sound.kept.step stepped
  have peers : server.peerAuth = d.server.peerAuth :=
    ((Server.step_evolves ctx { Scope.any with governs := False } _ stepped
      ⟨fun _ _ => trivial, fun _ _ _ _ => trivial, fun _ _ _ _ _ => trivial, id⟩).governed id).2
  have others : ∀ k, d.server.AllSignalled k → server.AllSignalled k := fun k all =>
    allSignalled_step stepped (fun _ tries => absurd tries id) all
  cases c with
  | revoke i key =>
      refine sound.answered queue kept peers ?_ others _
      obtain ⟨-, ⟨-, branched⟩ | ⟨n, isResume, -⟩⟩ :=
        Server.step_dispatcher_cases ctx _ stepped
      · cases branched
        exact Server.evictSessionsForKey_signalled ctx sound.kept key
      · cases isResume
  | other command =>
      refine ⟨kept, fun j r k found underWay => ?_, sound.unanswered, sound.single,
        fun j k member => ?_, ?_⟩
      · simp only [answer, peers]
        exact sound.named j r k found underWay
      · exact sound.queued j k (by rw [queue]; exact List.mem_cons_of_mem _ member)
      · rintro k ⟨revoked, none⟩
        simp only [answer, peers] at revoked
        exact others k (sound.settled k ⟨revoked, none⟩)

theorem Sound.request (sound : d.Sound) (publicKey : String) :
    ({ d with requests := d.requests ++ [{ publicKey := publicKey }] } : Daemon σ).Sound := by
  have before : ∀ (j : Nat) (q : RevokeRequest) k,
    (d.requests ++ [{ publicKey := publicKey }])[j]? = some q → q.UnderWay k → d.requests[j]? =
    some q := by
    intro j q k found underWay
    rw [List.getElem?_append] at found
    split at found
    · exact found
    · rw [List.getElem?_singleton] at found
      split at found
      · cases found
        rcases underWay with state | state <;> cases state
      · cases found
  have after : ∀ (j : Nat) (q : RevokeRequest), d.requests[j]? = some q →
      (d.requests ++ [{ publicKey := publicKey }])[j]? = some q := fun j q found => by
    rw [List.getElem?_append_left (List.getElem?_eq_some_iff.mp found).1]
    exact found
  refine ⟨sound.kept, fun j q k found underWay =>
    sound.named j q k (before j q k found underWay) underWay, ?_,
    fun j l q q' k found found' underWay underWay' =>
      sound.single j l q q' k (before j q k found underWay) (before l q' k found' underWay')
        underWay underWay', fun j k member => ?_, ?_⟩
  · intro j q k found early
    rw [List.getElem?_append] at found
    split at found
    · exact sound.unanswered j q k found early
    · rw [List.getElem?_singleton] at found
      split at found
      · cases found
        rfl
      · cases found
  · obtain ⟨q, found, state⟩ := sound.queued j k member
    exact ⟨q, after j q found, state⟩
  · rintro k ⟨revoked, none⟩
    exact sound.settled k ⟨revoked, fun j q found => none j q (after j q found)⟩

theorem step_server_cases {e : ServerEvent} (stepped : d.step ctx (.server e) = some d') :
    (∀ key, e ≠ .auth (.revoke key)) ∧ ∃ server, d.server.step ctx e = some server ∧
      d' = { d with server := server } := by
  have general : (d.server.step ctx e).map (fun server => { d with server := server }) = some d' →
      ∃ server, d.server.step ctx e = some server ∧ d' = { d with server := server } := by
    intro mapped
    obtain ⟨server, moved, rfl⟩ := Option.map_eq_some_iff.mp mapped
    exact ⟨server, moved, rfl⟩
  cases e with
  | dispatcher env branch =>
      refine ⟨fun _ => ServerEvent.noConfusion, ?_⟩
      cases branch with
      | control command => cases stepped
      | _ => exact general stepped
  | auth change =>
      cases change with
      | revoke key => cases stepped
      | _ =>
          refine ⟨fun _ same => ?_, general stepped⟩
          cases same
  | _ => exact ⟨fun _ => ServerEvent.noConfusion, general stepped⟩

theorem Sound.step {e : DaemonEvent} (meets : d.Meets ctx e) (stepped : d.step ctx e = some d')
    (sound : d.Sound) :
    d'.Sound := by
  cases e with
  | server e =>
      obtain ⟨denies, server, stepped', rfl⟩ := step_server_cases stepped
      exact sound.server stepped' denies meets
  | request publicKey =>
      cases stepped
      exact sound.request publicKey
  | operator i =>
      cases isRequest : d.requests[i]? with
      | none => simp [Daemon.step, isRequest] at stepped
      | some r =>
          simp only [Daemon.step, isRequest] at stepped
          exact sound.operate isRequest stepped
  | command command =>
      have sent : ∀ command, (if d.control.length < CONTROL_CHAN
          then some { d with control := d.control ++ [.other command] } else none) =
            some d' → d'.Sound := by
        intro command stepped
        rw [Option.ite_none_right_eq_some] at stepped
        cases stepped.2
        refine ⟨sound.kept, sound.named, sound.unanswered, sound.single, fun j k member => ?_,
          sound.settled⟩
        rcases List.mem_append.mp member with old | last
        · exact sound.queued j k old
        · cases List.mem_singleton.mp last
      cases command with
      | revoke key => cases stepped
      | listSessions => exact sent _ stepped
      | disconnect sessionId peerKey => exact sent _ stepped
  | control env =>
      cases queue : d.control with
      | nil => simp [Daemon.step, queue] at stepped
      | cons c rest =>
          simp only [Daemon.step, queue, Option.map_eq_some_iff] at stepped
          obtain ⟨server, stepped', rfl⟩ := stepped
          exact sound.control queue stepped'

theorem Settled.operate {i : Nat} {r : RevokeRequest} (isRequest : d.requests[i]? = some r)
    (operated : d.operate i r = some d') (settled : d.Settled key) : d'.Settled key := by
  obtain ⟨revoked, none⟩ := settled
  rcases operate_cases operated with ⟨response, rfl, -⟩ | ⟨k, arrived, named, new,
    rfl⟩ | ⟨k, denylisted, rfl⟩
  · refine ⟨revoked, fun j q found waiting => ?_⟩
    rcases getElem?_modify_cases isRequest found with ⟨-, before⟩ | ⟨-, rfl⟩
    · exact none j q before waiting
    · rcases waiting with state | ⟨state, -⟩ <;> cases state
  · refine ⟨isRevoked_revoke.mpr (.inr revoked), fun j q found waiting => ?_⟩
    rcases getElem?_modify_cases isRequest found with ⟨-, before⟩ | ⟨-, rfl⟩
    · exact none j q before waiting
    · rcases waiting with state | ⟨state, -⟩
      · cases state
        exact new revoked
      · cases state
  · refine ⟨revoked, fun j q found waiting => ?_⟩
    rcases getElem?_modify_cases isRequest found with ⟨-, before⟩ | ⟨-, rfl⟩
    · exact none j q before waiting
    · rcases waiting with state | ⟨state, -⟩
      · cases state
      · cases state
        exact none i r isRequest (.inl denylisted)

theorem Settled.step {e : DaemonEvent} (stepped : d.step ctx e = some d') (sound : d.Sound)
    (lifted : e ≠ .server (.auth (.unrevoke key))) (settled : d.Settled key) :
    d'.Settled key := by
  obtain ⟨revoked, none⟩ := settled
  cases e with
  | server e =>
      obtain ⟨denies, server, stepped', rfl⟩ := step_server_cases stepped
      refine ⟨?_, none⟩
      by_cases lifts : ∃ k, e = .auth (.unrevoke k)
      · obtain ⟨k, rfl⟩ := lifts
        cases stepped'
        refine isRevoked_unrevoke.mpr ⟨?_, revoked⟩
        rintro rfl
        exact lifted rfl
      · rw [isRevoked_congr
          (Server.step_denylist stepped' fun k => ⟨denies k, fun is => lifts ⟨k, is⟩⟩)]
        exact revoked
  | request publicKey =>
      cases stepped
      refine ⟨revoked, fun j q found waiting => ?_⟩
      simp only [List.getElem?_append, List.getElem?_singleton] at found
      split at found
      · exact none j q found waiting
      · split at found
        · cases found
          exact not_waiting_arrived rfl waiting
        · cases found
  | operator i =>
      cases isRequest : d.requests[i]? with
      | none => simp [Daemon.step, isRequest] at stepped
      | some r =>
          simp only [Daemon.step, isRequest] at stepped
          exact Settled.operate isRequest stepped ⟨revoked, none⟩
  | command command =>
      have sent : ∀ command, (if d.control.length < CONTROL_CHAN
          then some { d with control := d.control ++ [.other command] } else Option.none) =
            some d' → d'.Settled key := by
        intro command stepped
        rw [Option.ite_none_right_eq_some] at stepped
        cases stepped.2
        exact ⟨revoked, none⟩
      cases command with
      | revoke key => cases stepped
      | listSessions => exact sent _ stepped
      | disconnect sessionId peerKey => exact sent _ stepped
  | control env =>
      cases queue : d.control with
      | nil => simp [Daemon.step, queue] at stepped
      | cons c rest =>
          simp only [Daemon.step, queue, Option.map_eq_some_iff] at stepped
          obtain ⟨server, stepped', rfl⟩ := stepped
          have same : server.peerAuth.isRevoked key = d.server.peerAuth.isRevoked key :=
            isRevoked_congr
              (Server.step_denylist stepped' fun _ =>
                ⟨ServerEvent.noConfusion, ServerEvent.noConfusion⟩) key
          cases c with
          | revoke i k =>
              refine ⟨same.trans revoked, fun j q found waiting => ?_⟩
              obtain ⟨r, isRequest, -⟩ :=
                sound.queued i k (by rw [queue]; exact List.mem_cons_self)
              rcases getElem?_modify_cases isRequest found with ⟨-, before⟩ | ⟨-, rfl⟩
              · exact none j q before waiting
              · rcases waiting with state | ⟨-, answered⟩
                · exact none i r isRequest (.inl state)
                · cases answered
          | other command => exact ⟨same.trans revoked, none⟩

/-! ## Acknowledged revocations -/

variable (ctx) in
/-- The step in which a revocation of the key replies with an acknowledgement. -/
def Acks (d : Daemon σ) (key : Bytes) (e : DaemonEvent) : Prop :=
  ∃ i r text d', e = .operator i ∧ d.requests[i]? = some r ∧ r.key = some key ∧
    d.step ctx e = some d' ∧ d'.requests[i]? = some { r with state := .replied (.ack text) }

theorem Acks.settled {e : DaemonEvent} (acks : d.Acks ctx key e) (sound : d.Sound)
    (meets : d.Meets ctx e) (stepped : d.step ctx e = some d') : d'.Settled key := by
  obtain ⟨i, r, text, d'', rfl, isRequest, named, stepped', replied⟩ := acks
  rw [stepped'] at stepped
  cases stepped
  simp only [Daemon.step, isRequest] at stepped'
  refine Settled.operate isRequest stepped' ?_
  have here : ∀ (d : Daemon σ) state, (d.setState i state).requests[i]? =
    (d.requests[i]?).map fun r =>
      { r with state := state } := fun d state => List.getElem?_modify_eq _ i d.requests
  rcases operate_cases stepped' with ⟨response, rfl, -, -, granted⟩ | ⟨k, -, -, -,
    rfl⟩ | ⟨k, -, rfl⟩
  · rw [here, isRequest] at replied
    cases replied
    rcases granted text rfl with ⟨arrived, k, named', revoked⟩ | ⟨k, count,
      queued, answered⟩
    · rw [named] at named'
      cases named'
      exact ⟨revoked, meets r key isRequest arrived named revoked⟩
    · obtain ⟨named', revoked⟩ := sound.named i r k isRequest (.inr queued)
      rw [named] at named'
      cases named'
      refine ⟨revoked, fun j q found waiting => ?_⟩
      cases sound.single i j r q key isRequest found (.inr queued) (waiting.imp_right And.left)
      rw [isRequest] at found
      cases found
      rw [RevokeRequest.Waiting, queued, answered] at waiting
      rcases waiting with state | ⟨-, state⟩ <;> cases state
  · rw [here, isRequest] at replied
    cases replied
  · rw [here, isRequest] at replied
    cases replied

theorem no_session_made {e : DaemonEvent} (stepped : d.step ctx e = some d')
    (revoked : d.server.peerAuth.isRevoked key = true)
    (restricted : d.server.peerAuth.isOpenMode = false) {sid : SessionId} {h : ClientHandle}
    (found : d'.server.sessions.lookup sid = some h) (owner : h.peerKey = key) :
    ∃ h₀, d.server.sessions.lookup sid = some h₀ ∧ h₀.peerKey = key ∧
    h₀.task = h.task := by
  have moved : ∀ {e : ServerEvent} {server : Server σ}, d.server.step ctx e = some server →
      server.sessions.lookup sid = some h →
        ∃ h₀, d.server.sessions.lookup sid = some h₀ ∧ h₀.peerKey = key ∧
        h₀.task = h.task := by
    intro e server stepped found
    have evolves := Server.step_evolves ctx ⟨True, True, (· ≠ key), True⟩ _ stepped
      ⟨fun _ _ => trivial, fun _ _ _ _ => trivial, fun msg1 k _ _ admits => ?_,
      fun _ => trivial⟩
    · rcases evolves.sessions found with ⟨h₀, found₀, moves⟩ | ⟨-, -, differs, -⟩
      · exact ⟨h₀, found₀,
          by rw [← owner, HandleMoves.peerKey moves], (HandleMoves.task moves).symm⟩
      · exact absurd owner differs
    · rintro rfl
      rw [Server.isOpenMode_of_admits admits revoked] at restricted
      cases restricted
  have same : d'.server.sessions = d.server.sessions →
      ∃ h₀, d.server.sessions.lookup sid = some h₀ ∧ h₀.peerKey = key ∧
      h₀.task = h.task := fun same =>
    ⟨h, same ▸ found, owner, rfl⟩
  cases e with
  | server e =>
      obtain ⟨-, server, stepped', rfl⟩ := step_server_cases stepped
      exact moved stepped' found
  | request publicKey =>
      cases stepped
      exact same rfl
  | operator i =>
      cases isRequest : d.requests[i]? with
      | none => simp [Daemon.step, isRequest] at stepped
      | some r =>
          simp only [Daemon.step, isRequest] at stepped
          rcases operate_cases stepped with ⟨response, rfl, -⟩ | ⟨k, -, -, -,
            rfl⟩ | ⟨k, -, rfl⟩
          · exact same rfl
          · exact same rfl
          · exact same rfl
  | command command =>
      cases command with
      | revoke key => cases stepped
      | _ =>
          simp only [Daemon.step, Option.ite_none_right_eq_some] at stepped
          cases stepped.2
          exact same rfl
  | control env =>
      cases queue : d.control with
      | nil => simp [Daemon.step, queue] at stepped
      | cons c rest =>
          simp only [Daemon.step, queue, Option.map_eq_some_iff] at stepped
          obtain ⟨server, stepped', rfl⟩ := stepped
          cases c with
          | revoke i k => exact moved stepped' found
          | other command => exact moved stepped' found

/-- In every run whose steps meet the condition, once a revocation of a key has been
    acknowledged and until the key is taken off the denylist, every session of the key in
    the table has been asked to close, and in restricted mode no session of it is made. -/
theorem acked_sessions_signalled {now : Instant} {peerAuth : PeerAuth}
    {before after : List DaemonEvent} {e : DaemonEvent}
    (ran : Runs.run (step ctx) (init now peerAuth) before = some d)
    (meets : Runs.Along (step ctx) (Meets ctx) (init now peerAuth) (before ++ e :: after))
    (acks : d.Acks ctx key e) (ran' : Runs.run (step ctx) d (e :: after) = some d')
    (lifted : ∀ f ∈ after, f ≠ .server (.auth (.unrevoke key))) :
    d'.server.AllSignalled key ∧
      (d'.server.peerAuth.isOpenMode = false → ∀ f d'', d'.step ctx f = some d'' →
        ∀ sid h, d''.server.sessions.lookup sid = some h → h.peerKey = key →
          ∃ h₀, d'.server.sessions.lookup sid = some h₀ ∧ h₀.peerKey = key ∧
          h₀.task = h.task) := by
  have sound : d.Sound :=
    Runs.invariant_along Sound (fun _ _ _ meets stepped sound => sound.step meets stepped)
    (Runs.along_append meets).1 ran (.init now peerAuth)
  obtain ⟨here, later⟩ := Runs.along_cons.mp ((Runs.along_append meets).2 d ran)
  obtain ⟨mid, stepped, rest⟩ := Runs.run_cons_eq_some.mp ran'
  have start : mid.Sound ∧ mid.Settled key :=
    ⟨sound.step here stepped, acks.settled sound here stepped⟩
  obtain ⟨sound', settled⟩ : d'.Sound ∧ d'.Settled key :=
    Runs.invariant_along (fun d => d.Sound ∧ d.Settled key)
      (fun _ _ _ ok stepped both => ⟨both.1.step ok.1 stepped, both.2.step stepped both.1 ok.2⟩)
      ((later mid stepped).and_mem lifted) rest start
  exact ⟨sound'.settled key settled, fun restricted f d'' stepped sid h found owner =>
    no_session_made stepped settled.1 restricted found owner⟩

/-! ## Runs of one key -/

/-- The key of thirty-two nines, as an operator writes it. -/
def nineHex : String := "0909090909090909090909090909090909090909090909090909090909090909"

/-- Restricted mode with one key. -/
def nineOnly : PeerAuth := .fromEntries [⟨nineHex, none⟩]

/-- The client of the key connects, and an operator asks twice to revoke it. -/
def revokedTwice : List DaemonEvent :=
  [.server (.dispatcher (.small 1 5) (.datagram (smallMessage1 9 3) ⟨.v4 1, 1⟩)),
    .request nineHex, .request nineHex, .operator 0]

/-- Whether a session of the key in the table has not been asked to close. -/
def unasked (d : Daemon σ) (key : Bytes) : Bool :=
  d.server.sessions.entries.any fun e => e.2.peerKey == key &&
    d.server.tasks[e.2.task]?.any fun t => t.evictRx == 0 && t.running

theorem not_allSignalled_of_unasked (unasked : d.unasked key = true) :
    ¬ d.server.AllSignalled key := by
  intro all
  obtain ⟨⟨sid, h⟩, member, checked⟩ := List.any_eq_true.mp unasked
  obtain ⟨owner, idle⟩ := Bool.and_eq_true_iff.mp checked
  obtain ⟨t, isTask, signalled⟩ := all sid h (AList.mem_lookup_iff.mpr member) (eq_of_beq owner)
  rw [isTask, Option.any_some, Bool.and_eq_true, beq_iff_eq] at idle
  rcases signalled with queued | ended
  · exact absurd idle.1 (Nat.pos_iff_ne_zero.mp queued)
  · rw [ended] at idle
    cases idle.2

/-- The second revocation is acknowledged before the dispatcher has heard of the first
    one: the session of the key runs on. -/
theorem second_revocation_early :
    ∃ d d', Runs.run (step (ServerCtx.small .udp 4)) (init 0 nineOnly) revokedTwice = some d ∧
      d.Acks (ServerCtx.small .udp 4) (List.replicate 32 9) (.operator 1) ∧
      d.step (ServerCtx.small .udp 4) (.operator 1) = some d' ∧
      ¬ d'.server.AllSignalled (List.replicate 32 9) := by
  have evaluated :
    (Runs.run (step (ServerCtx.small .udp 4)) (init 0 nineOnly) revokedTwice).any (fun d =>
      d.requests[1]? == some ⟨nineHex, .arrived, none⟩ &&
        (d.step (ServerCtx.small .udp 4) (.operator 1)).any fun d' =>
        d'.requests[1]? == some ⟨nineHex, .replied (.ack s!"peer key {nineHex} already revoked"),
          none⟩ && d'.unasked (List.replicate 32 9)) = true := by
    decide +kernel
  obtain ⟨d, ran, checked⟩ := (Option.any_eq_true _ _).mp evaluated
  obtain ⟨isRequest, rest⟩ := Bool.and_eq_true_iff.mp checked
  obtain ⟨d', stepped, checked'⟩ := (Option.any_eq_true _ _).mp rest
  obtain ⟨replied, unasked⟩ := Bool.and_eq_true_iff.mp checked'
  have named : RevokeRequest.key ⟨nineHex, .arrived, none⟩ = some (List.replicate 32 9) :=
    by decide +kernel
  exact ⟨d, d', ran,
    ⟨1, _, _, d', rfl, eq_of_beq isRequest, named, stepped, eq_of_beq replied⟩, stepped,
    not_allSignalled_of_unasked unasked⟩

/-- A check that is enough for the condition in restricted mode. -/
def quiet (d : Daemon σ) : DaemonEvent → Bool
  | .operator i => d.requests[i]?.all fun r =>
      r.state != .arrived || r.key.all fun key => !d.server.peerAuth.isRevoked key
  | .server (.auth _) => false
  | .server _ => !d.server.peerAuth.isOpenMode
  | _ => true

theorem meets_of_quiet (d : Daemon σ) (e : DaemonEvent) (quiet : d.quiet e = true) :
    d.Meets ctx e := by
  cases e with
  | operator i =>
      intro r key isRequest arrived named revoked
      simp [Daemon.quiet, isRequest, arrived, named, revoked] at quiet
  | server e =>
      cases e with
      | auth _ => cases quiet
      | _ =>
          intro opened
          simp [Daemon.quiet, opened] at quiet
  | _ => trivial

/-- The client of the key connects, and an operator asks once to revoke it; the
    dispatcher has answered. -/
def revokedOnce : List DaemonEvent :=
  [.server (.dispatcher (.small 1 5) (.datagram (smallMessage1 9 3) ⟨.v4 1, 1⟩)),
    .request nineHex, .operator 0, .operator 0, .control (.small 2 5)]

/-- A revocation that runs to its end leaves the session asked to close. -/
theorem single_revocation_signals :
    ∃ d d', Runs.run (step (ServerCtx.small .udp 4)) (init 0 nineOnly) revokedOnce = some d ∧
      d.Acks (ServerCtx.small .udp 4) (List.replicate 32 9) (.operator 0) ∧
      d.step (ServerCtx.small .udp 4) (.operator 0) = some d' ∧
      d'.server.sessions.keys ≠ [] ∧ d'.server.AllSignalled (List.replicate 32 9) := by
  have evaluated :
    (Runs.run (step (ServerCtx.small .udp 4)) (init 0 nineOnly) revokedOnce).any (fun d =>
      d.requests[0]? == some ⟨nineHex, .queued (List.replicate 32 9), some 1⟩ &&
        (d.step (ServerCtx.small .udp 4) (.operator 0)).any fun d' =>
        d'.requests[0]? == some ⟨nineHex, .replied (.ack "revoked; 1 active session(s) evicted"),
          some 1⟩ && !d'.server.sessions.keys.isEmpty) = true := by
    decide +kernel
  obtain ⟨d, ran, checked⟩ := (Option.any_eq_true _ _).mp evaluated
  obtain ⟨isRequest, rest⟩ := Bool.and_eq_true_iff.mp checked
  obtain ⟨d', stepped, checked'⟩ := (Option.any_eq_true _ _).mp rest
  obtain ⟨replied, inTable⟩ := Bool.and_eq_true_iff.mp checked'
  have named : RevokeRequest.key ⟨nineHex, .queued (List.replicate 32 9), some 1⟩ =
    some (List.replicate 32 9) := by
    decide +kernel
  have meets : Runs.Along (step (ServerCtx.small .udp 4)) (Meets (ServerCtx.small .udp 4))
    (init 0 nineOnly) (revokedOnce ++ [.operator 0]) :=
    Runs.along_of_check meets_of_quiet (by decide +kernel)
  have acks : d.Acks (ServerCtx.small .udp 4) (List.replicate 32 9) (.operator 0) :=
    ⟨0, _, _, d', rfl, eq_of_beq isRequest, named, stepped, eq_of_beq replied⟩
  have last : Runs.run (step (ServerCtx.small .udp 4)) d [.operator 0] = some d' :=
    Runs.run_cons_eq_some.mpr ⟨d', stepped, rfl⟩
  refine ⟨d, d', ran, acks, stepped, ?_, ?_⟩
  · simpa using inTable
  · exact (acked_sessions_signalled ran meets acks last (by simp)).1

end Daemon

end Rustnies
