import Rustnies.Tunnel.Acknowledged

/-! # How a loop ends

A watch sees three things of a tunnel: when the peer was last heard, the replay window, and
whether the loop has ended. What it sees after a run it could have told from the events
and the cipher alone, so nothing that the tunnel sends, recovers, drops or fails to send
ends a session or puts off its end.
-/

namespace Rustnies

variable {σ : Type}

structure Watch where
  heard : Instant
  replay : ReplayWindow
  exit : Option TunnelExit
  deriving DecidableEq

namespace Watch

/-- A packet that opens is heard; the replay window is asked for a reliable one. -/
def hear (cfg : Config σ) (id : SessionId) (env : Env) (w : Watch) : Event → Watch
  | .datagram bytes _ =>
      match cfg.openDatagram id bytes with
      | .error _ => w
      | .ok (hdr, _) =>
          { w with
            heard := env.now
            replay := if hdr.packetType.isReliable then (w.replay.checkAndRecord hdr.seq).2
              else w.replay }
  | _ => w

/-- The exit with which an event ends the loop. -/
def ending (cfg : Config σ) (id : SessionId) (env : Env) (w : Watch) : Event → Option TunnelExit
  | .stop requested => if requested then some .stopped else none
  | .tunError => some .tunError
  | .udpClosed => some .udpClosed
  | .timeoutCheck => if cfg.sessionTimeout ≤ env.now - w.heard then some .sessionTimeout else none
  | .evict => some .peerClosed
  | .datagram bytes _ =>
      match cfg.openDatagram id bytes with
      | .error _ => none
      | .ok (hdr, _) =>
          if hdr.packetType = .close ∧ (w.replay.checkAndRecord hdr.seq).1 = true
            then some .peerClosed else none
  | _ => none

def step (cfg : Config σ) (id : SessionId) (w : Watch) (turn : Env × Event) : Watch :=
  if w.exit.isSome then w
  else { w.hear cfg id turn.1 turn.2 with exit := w.ending cfg id turn.1 turn.2 }

end Watch

namespace Tunnel

variable {cfg : Config σ} {env : Env} {phase : Phase} {packet : Option (PacketHeader × Bytes)}
  {t t' start : Tunnel σ} {notes old : List Note} {turns : List (Env × Event)}

def watch (t : Tunnel σ) : Watch := ⟨t.lastPeerActivity, t.session.replay, t.exit⟩

/-! ## The peer and the replay window -/

/-- The numbers that the replay window was asked for. -/
def checkedOf (notes : List Note) : List UInt32 :=
  notes.filterMap fun
    | .checked seq => some seq
    | .heard _ _ | .counted _ => none

@[simp]
theorem checkedOf_append (notes notes' : List Note) :
    checkedOf (notes ++ notes') = checkedOf notes ++ checkedOf notes' :=
  List.filterMap_append

/-- The notes of a turn say what becomes of the peer's time and of the replay window. -/
structure Watched (env : Env) (start : Tunnel σ) (notes : List Note) (t : Tunnel σ) : Prop where
  heard : t.lastPeerActivity = if heardOf notes = [] then start.lastPeerActivity else env.now
  replay : t.session.replay =
    (checkedOf notes).foldl (fun w seq => (w.checkAndRecord seq).2) start.session.replay

theorem Watched.more {added : List Note} (watched : Watched env start old t)
    (unheard : heardOf added = []) (unchecked : checkedOf added = [])
    (heard : t'.lastPeerActivity = t.lastPeerActivity)
    (replay : t'.session.replay = t.session.replay) : Watched env start (old ++ added) t' := by
  refine ⟨?_, ?_⟩
  · rw [heardOf_append, unheard, List.append_nil, heard]
    exact watched.heard
  · rw [checkedOf_append, unchecked, List.append_nil, replay]
    exact watched.replay

theorem Move.watched (move : Move cfg env phase packet t notes t')
    (watched : Watched env start old t) :
    Watched env start (old ++ notes) t' := by
  cases move with
  | hears opened =>
      rename_i hdr payload
      have noted : heardOf (old ++ [.heard hdr payload]) ≠ [] := by
        rw [heardOf_append]
        exact List.append_ne_nil_of_right_ne_nil _ (List.cons_ne_nil _ _)
      refine ⟨(if_neg noted).symm, ?_⟩
      rw [checkedOf_append, show checkedOf [.heard hdr payload] = [] from rfl, List.append_nil]
      exact watched.replay
  | replays seq =>
      refine ⟨?_, ?_⟩
      · rw [heardOf_append, show heardOf [.checked seq] = [] from rfl, List.append_nil]
        exact watched.heard
      · rw [checkedOf_append, show checkedOf [.checked seq] = [seq]
          from rfl, List.foldl_append, ← watched.replay]
        rfl
  | _ => exact watched.more rfl rfl rfl rfl

theorem handleEvent_watched {e : Event} (running : t.exit = none)
    (done : t.handleEvent cfg env e = some t') :
    Watched env t (t.notes cfg e) t' := by
  have start : Watched env t [] t := ⟨rfl, rfl⟩
  exact (handleEvent_moves running done).invariant (fun t' notes => Watched env t notes t')
    (fun _ _ _ _ => Move.watched) start

theorem handleEvent_hear {e : Event} (running : t.exit = none)
    (done : t.handleEvent cfg env e = some t') :
    t'.lastPeerActivity = (t.watch.hear cfg t.session.id env e).heard ∧
      t'.session.replay = (t.watch.hear cfg t.session.id env e).replay := by
  obtain ⟨heard, replay⟩ := handleEvent_watched running done
  have silent : t.opened cfg e = none → t.notes cfg e = [] := by
    intro unopened
    simp only [notes, running, Option.isSome_none, Bool.false_eq_true, if_false, unopened]
  cases e with
  | datagram bytes source =>
      simp only [notes, running, Option.isSome_none, Bool.false_eq_true, if_false,
        opened] at heard replay
      cases result : cfg.openDatagram t.session.id bytes with
      | error e =>
          simp only [result, Except.toOption] at heard replay
          simp only [Watch.hear, result]
          exact ⟨heard, replay⟩
      | ok packet =>
          obtain ⟨hdr, payload⟩ := packet
          simp only [result, Except.toOption] at heard replay
          simp only [Watch.hear, result, watch]
          rw [notesOf] at heard replay
          cases reliable : hdr.packetType.isReliable with
          | true =>
              simp only [reliable, if_true] at heard replay ⊢
              cases fresh : (t.session.receiveReliable hdr.seq).1 with
              | true =>
                  rw [fresh, if_pos rfl] at heard replay
                  exact ⟨heard, replay⟩
              | false =>
                  rw [fresh, if_neg Bool.false_ne_true] at heard replay
                  exact ⟨heard, replay⟩
          | false =>
              simp only [reliable, Bool.false_eq_true, if_false] at heard replay ⊢
              exact ⟨heard, replay⟩
  | _ =>
      rw [silent rfl] at heard replay
      exact ⟨heard, replay⟩

/-! ## The exit -/

theorem receiveReliable_fresh (s : Session) (seq : UInt32) :
    (s.receiveReliable seq).1 = (s.replay.checkAndRecord seq).1 := by
  simp only [Session.receiveReliable]
  split
  · rename_i fresh
    exact fresh.symm
  · rename_i stale
    exact (Bool.not_eq_true _).mp stale |>.symm

theorem fresh_closing {source : SocketAddr} {hdr : PacketHeader} {payload : Bytes}
    (kind : hdr.packetType = .close) (fresh : (t.session.receiveReliable hdr.seq).1 = true)
    (accepted : t.acceptPacket cfg env source hdr payload = some t') : t'.closing = true := by
  have reliable : hdr.packetType.isReliable = true := by rw [kind]; rfl
  have first :=
    (receiveReliable_congr (replay_before_check cfg env t source hdr) hdr.seq).trans fresh
  simp only [acceptPacket, reliable, if_true] at accepted
  split at accepted
  · rename_i session known
    rw [known] at first
    cases first
  · simp only [dispatch, kind] at accepted
    cases accepted
    rfl

theorem datagram_ending {bytes : Bytes} {source : SocketAddr} (running : t.exit = none)
    (calm : t.closing = false) (done : t.handleEvent cfg env (.datagram bytes source) = some t') :
    t'.exit = t.watch.ending cfg t.session.id env (.datagram bytes source) := by
  simp only [Watch.ending]
  cases result : cfg.openDatagram t.session.id bytes with
  | error e =>
      simp only [handleEvent, handleUdpDatagram, result, Option.map_some, calm, Bool.false_eq_true,
        if_false, Option.some.injEq] at done
      exact done ▸ running
  | ok packet =>
      obtain ⟨hdr, payload⟩ := packet
      have asked : (t.session.receiveReliable hdr.seq).1 =
        (t.watch.replay.checkAndRecord hdr.seq).1 :=
        receiveReliable_fresh _ _
      simp only
      rcases datagram_exits running calm done with ⟨stays, open_⟩ | ⟨ends, hdr', payload',
        same, kind, fresh⟩
      · -- a new `Close` would have ended the loop
        rw [stays, if_neg]
        rintro ⟨kind, fresh⟩
        simp only [handleEvent, handleUdpDatagram, result] at done
        obtain ⟨mid, accepted, rfl⟩ := Option.map_eq_some_iff.mp done
        have closes := fresh_closing kind (asked.trans fresh) accepted
        rw [if_pos closes] at stays
        cases stays
      · rw [result] at same
        cases same
        rw [if_pos ⟨kind, asked.symm.trans fresh⟩]
        simp only [handleEvent, handleUdpDatagram, result] at done
        obtain ⟨mid, accepted, rfl⟩ := Option.map_eq_some_iff.mp done
        rw [if_pos (fresh_closing kind fresh accepted)]

theorem handleEvent_ending {e : Event} (running : t.exit = none) (calm : t.closing = false)
    (done : t.handleEvent cfg env e = some t') :
    t'.exit = t.watch.ending cfg t.session.id env e := by
  have controls : Controls cfg t t' → t'.exit = none :=
    fun controls => controls.rx.exit.trans running
  have sends : (∃ packets, Transmits cfg t packets t') → t'.exit = none := by
    rintro ⟨packets, transmits⟩
    exact transmits.rx.exit.trans running
  cases e with
  | datagram bytes source => exact datagram_ending running calm done
  | stop requested =>
      cases done
      cases requested with
      | true => rfl
      | false => exact running
  | tun packet =>
      cases done
      exact sends (onTun_transmits cfg env t packet)
  | tunError =>
      cases done
      rfl
  | pacerRetry =>
      simp only [handleEvent, Option.some.injEq] at done
      split at done
      · exact sends (done ▸ retryPending_transmits cfg env t)
      · exact done ▸ running
  | udpClosed =>
      cases done
      rfl
  | ping =>
      cases done
      exact controls (sendPing_controls t)
  | fecTick =>
      cases done
      obtain ⟨packets, transmits⟩ := flushFecGroupIfStale_transmits cfg env t
      exact transmits.rx.exit.trans running
  | rtoTick =>
      cases done
      exact controls (checkRetransmits_controls t)
  | ackTick =>
      cases done
      exact controls (flushCoalescedAck_controls t)
  | keepalive =>
      cases done
      exact controls (sendKeepalive_controls t)
  | timeoutCheck =>
      cases done
      by_cases quiet : cfg.sessionTimeout ≤ env.now - t.lastPeerActivity
      · rw [if_pos quiet]
        exact (if_pos quiet).symm
      · rw [if_neg quiet, running]
        exact (if_neg quiet).symm
  | evict =>
      cases done
      rfl

/-! ## Runs -/

theorem step_watch {turn : Env × Event} (calm : t.Calm) (stepped : step cfg t turn = some t') :
    t'.watch = t.watch.step cfg t.session.id turn := by
  cases exited : t.exit with
  | some exit =>
      rw [step_exited turn (by rw [exited]; rfl)] at stepped
      cases stepped
      simp only [Watch.step, watch, exited, Option.isSome_some, if_true]
  | none =>
      rw [step_running turn exited] at stepped
      obtain ⟨heard, replay⟩ := handleEvent_hear exited stepped
      have ending := handleEvent_ending exited (calm exited) stepped
      have running : t.watch.exit.isSome = false := by
        rw [watch, exited]
        rfl
      simp only [Watch.step, running, Bool.false_eq_true, if_false]
      rw [watch, heard, replay, ending]

/-- A run of the loop is a run of the watch: when the peer was last heard, the replay window
    and the exit follow from the events and from what opens, whatever the tunnel
    sends, however its congestion control and its FEC stand, and whatever fails. -/
theorem run_watch (calm : t.Calm) (ran : run cfg t turns = some t') :
    t'.watch = turns.foldl (Watch.step cfg t.session.id) t.watch := by
  induction turns generalizing t with
  | nil =>
      cases ran
      rfl
  | cons turn turns ih =>
      obtain ⟨mid, stepped, rest⟩ := Runs.run_cons_eq_some.mp ran
      have later := ih (step_calm stepped calm) rest
      rwa [step_watch calm stepped, step_id stepped] at later

/-- A packet of the peer arrives, its `Close`, and nothing that comes later matters. -/
def closingTurns : List (Env × Event) :=
  let peer := sampleConfig .responderToInitiator .initiatorToResponder
  let data := firstWire (step peer (sampleTunnel ⟨1, 2⟩) (sampleEnv 0 0, .tun [1]))
  let close := firstWire (step peer (sampleTunnel ⟨1, 2⟩) (sampleEnv 0 0, .evict))
  [(sampleEnv 1 0, .datagram data (sampleAddr 2)), (sampleEnv 2 0, .datagram close (sampleAddr 2)),
    (sampleEnv 3 0, .tunError)]

theorem closingTurns_watched : ∃ t' : Tunnel Unit,
    run (sampleConfig .initiatorToResponder .responderToInitiator)
    (sampleTunnel ⟨1, 2⟩) closingTurns = some t' ∧ t'.exit = some .peerClosed ∧
    t'.watch = closingTurns.foldl
      (Watch.step (sampleConfig .initiatorToResponder .responderToInitiator)
        (sampleTunnel ⟨1, 2⟩).session.id) (sampleTunnel ⟨1, 2⟩).watch := by
  have evaluated :
    (run (sampleConfig .initiatorToResponder .responderToInitiator) (sampleTunnel ⟨1, 2⟩)
    closingTurns).any (fun t => decide (t.exit = some .peerClosed)) = true := by
    decide +kernel
  obtain ⟨t', ran, checked⟩ := (Option.any_eq_true _ _).mp evaluated
  exact ⟨t', ran, of_decide_eq_true checked, run_watch (fun _ => rfl) ran⟩

/-! ## Timeouts -/

/-- The time of a turn in which a packet opens. -/
def opensAt (cfg : Config σ) (id : SessionId) (turn : Env × Event) : Option Instant :=
  match turn.2 with
  | .datagram bytes _ => (cfg.openDatagram id bytes).toOption.map fun _ => turn.1.now
  | _ => none

/-- When the last packet that opened arrived. -/
def heardAt (cfg : Config σ) (id : SessionId) (start : Instant) (turns : List (Env × Event)) :
    Instant :=
  ((turns.filterMap (opensAt cfg id)).getLast?).getD start

theorem heardAt_cons (id : SessionId) (start : Instant) (turn : Env × Event) :
    heardAt cfg id start (turn :: turns) = heardAt cfg id
    ((opensAt cfg id turn).getD start) turns := by
  simp only [heardAt, List.filterMap_cons]
  cases opensAt cfg id turn with
  | none => rfl
  | some now => simp [List.getLast?_cons]

theorem hear_heard (w : Watch) (id : SessionId) (turn : Env × Event) :
    (w.hear cfg id turn.1 turn.2).heard = (opensAt cfg id turn).getD w.heard := by
  obtain ⟨env, e⟩ := turn
  cases e with
  | datagram bytes source =>
      simp only [Watch.hear, opensAt]
      cases cfg.openDatagram id bytes <;> rfl
  | _ => rfl

theorem lastPeerActivity_of_running (calm : t.Calm) (ran : run cfg t turns = some t')
    (running : t'.exit = none) :
    t'.lastPeerActivity = heardAt cfg t.session.id t.lastPeerActivity turns := by
  induction turns generalizing t with
  | nil =>
      cases ran
      rfl
  | cons turn turns ih =>
      obtain ⟨mid, stepped, rest⟩ := Runs.run_cons_eq_some.mp ran
      have going : t.exit = none := by
        refine Option.not_isSome_iff_eq_none.mp fun exited => ?_
        rw [run_exited exited] at ran
        cases ran
        rw [running] at exited
        cases exited
      have later := ih (step_calm stepped calm) rest
      rw [step_id stepped] at later
      rw [step_running turn going] at stepped
      rw [later, (handleEvent_hear going stepped).1, hear_heard, heardAt_cons]
      rfl

/-- A session times out exactly when a check finds the loop still running and the last packet
    that opened, or else the start of the tunnel, as far back as the timeout: traffic that
    does not open keeps no session alive, and every packet that opens does. -/
theorem timedOut_iff (running : t.exit = none) (calm : t.closing = false)
    (ran : run cfg t turns = some t') :
    t'.exit = some .sessionTimeout ↔
      ∃ left env right mid, turns = left ++ (env, .timeoutCheck) :: right ∧
      run cfg t left = some mid ∧ mid.exit = none ∧
      cfg.sessionTimeout ≤ env.now - heardAt cfg t.session.id t.lastPeerActivity left := by
  have calm' : t.Calm := fun _ => calm
  constructor
  · intro timedOut
    obtain ⟨left, ⟨env, e⟩, right, mid, mid', rfl, reached, going, stepped, ended, rest⟩ :=
      Runs.exists_step (P := fun t => t.exit.isSome) ran (by simp [running]) (by simp [timedOut])
    have going : mid.exit = none := Option.not_isSome_iff_eq_none.mp going
    have same : t' = mid' := Option.some.inj (rest.symm.trans (run_exited ended right))
    rw [step_running _ going] at stepped
    have ending :=
      handleEvent_ending going (Runs.invariant (fun _ _ _ => step_calm) reached calm' going) stepped
    rw [← same, timedOut] at ending
    have heard := lastPeerActivity_of_running calm' reached going
    cases e with
    | timeoutCheck =>
        refine ⟨left, env, right, mid, rfl, reached, going, Decidable.byContradiction
          fun alive => ?_⟩
        rw [← heard] at alive
        cases ending.trans (if_neg alive)
    | stop requested => cases requested <;> cases ending
    | datagram bytes source =>
        simp only [Watch.ending] at ending
        split at ending
        · cases ending
        · split at ending <;> cases ending
    | _ => cases ending
  · rintro ⟨left, env, right, mid, rfl, reached, going, quiet⟩
    have ran := (Runs.run_append (step cfg) t left _).symm.trans ran
    rw [show Runs.run (step cfg) t left = some mid from reached, Option.bind_some] at ran
    obtain ⟨mid', stepped, rest⟩ := Runs.run_cons_eq_some.mp ran
    rw [step_running _ going] at stepped
    have ending :=
      handleEvent_ending going (Runs.invariant (fun _ _ _ => step_calm) reached calm' going) stepped
    rw [← lastPeerActivity_of_running calm' reached going] at quiet
    have ended : mid'.exit = some .sessionTimeout := ending.trans (if_pos quiet)
    have same : t' = mid' :=
      Option.some.inj (rest.symm.trans (run_exited (by rw [ended]; rfl) right))
    rw [same, ended]

/-- A packet of the peer, a check just before its timeout, and one at it. -/
def quietTurns : List (Env × Event) :=
  let peer := sampleConfig .responderToInitiator .initiatorToResponder
  let data := firstWire (step peer (sampleTunnel ⟨1, 2⟩) (sampleEnv 0 0, .tun [1]))
  [(sampleEnv 5 0, .datagram data (sampleAddr 2)),
    (sampleEnv (SESSION_TIMEOUT + 4) 0, .timeoutCheck),
    (sampleEnv (SESSION_TIMEOUT + 5) 0, .timeoutCheck)]

theorem quietTurns_timedOut : ∃ t' : Tunnel Unit,
    run (sampleConfig .initiatorToResponder .responderToInitiator)
    (sampleTunnel ⟨1, 2⟩) quietTurns = some t' ∧ ∃ left env right mid,
    quietTurns = left ++ (env, .timeoutCheck) :: right ∧ run
    (sampleConfig .initiatorToResponder .responderToInitiator)
    (sampleTunnel ⟨1, 2⟩) left = some mid ∧ mid.exit = none ∧
    SESSION_TIMEOUT ≤ env.now - heardAt
        (sampleConfig .initiatorToResponder .responderToInitiator)
        (sampleTunnel ⟨1, 2⟩).session.id 0 left := by
  have evaluated :
    (run (sampleConfig .initiatorToResponder .responderToInitiator) (sampleTunnel ⟨1, 2⟩)
    quietTurns).any (fun t => decide (t.exit = some .sessionTimeout)) = true := by
    decide +kernel
  obtain ⟨t', ran, checked⟩ := (Option.any_eq_true _ _).mp evaluated
  exact ⟨t', ran, (timedOut_iff rfl rfl ran).mp (of_decide_eq_true checked)⟩

end Tunnel

end Rustnies
