import Rustnies.Server.Cap
import Rustnies.Tunnel.Closing
import Rustnies.Tunnel.GroupBounds

/-! # Eviction by the cap

`evict_oldest_peer_session` signals the task of the victim and then drops its handle,
and with it the sending ends of the task's other channels. So the victim's loop may find
three branches ready: the signal, a closed TUN channel and a closed UDP channel. It ends
with a `Close` unless a turn takes one of the closed channels, a `Close` of the peer, or a
packet that the receive path does not survive, before the signal.
-/

namespace Rustnies

variable {σ : Type}

namespace Tunnel

variable {cfg : Config σ} {env : Env} {t : Tunnel σ} {bytes : Bytes} {source : SocketAddr}

/-- The datagram is a packet whose index lies outside the group it names. -/
def Overruns (cfg : Config σ) (env : Env) (t : Tunnel σ) (bytes : Bytes) : Prop :=
  ∃ hdr payload, cfg.openDatagram t.session.id bytes = .ok (hdr, payload) ∧
    (hdr.fecPacket payload).Grouped ∧ (t.rxState.target env.now (hdr.fecPacket payload)).Overrun
    (hdr.fecPacket payload)

theorem overruns_of_panic (panics : t.handleUdpDatagram cfg env bytes source = none) :
    t.Overruns cfg env bytes := by
  cases opened : cfg.openDatagram t.session.id bytes with
  | error e => simp [handleUdpDatagram, opened] at panics
  | ok packet =>
      obtain ⟨hdr, payload⟩ := packet
      have accepts := (acceptPacket_spec cfg env t source hdr payload).1
      simp only [handleUdpDatagram, opened] at panics
      rw [panics, Option.map_none] at accepts
      by_cases grouped : (hdr.fecPacket payload).Grouped
      · rw [RxState.accept_grouped grouped] at accepts
        have overrun := RxState.record_eq_none_iff.mp accepts.symm
        rw [RxState.target_congr (RxState.writeOwn_groups ..)] at overrun
        exact ⟨hdr, payload, opened, grouped, overrun⟩
      · rw [RxState.accept_ungrouped grouped] at accepts
        cases accepts

end Tunnel

namespace Task

variable {t t' : Task σ} {env : Env} {branch : Branch}

/-- A turn that ends the loop without a `Close` of its own: an empty TUN or UDP channel
    is closed when it is ready, and a datagram may be a new `Close` of the peer, or a packet
    outside its group. -/
def SilentTurn (t : Task σ) (env : Env) : Branch → Prop
  | .tun => t.tunRx = []
  | .udp =>
      match t.udpRx with
      | [] => True
      | (bytes, _) :: _ =>
          t.tunnel.PeerCloses t.cfg bytes ∨ t.tunnel.Overruns t.cfg env bytes
  | _ => False

theorem silentTurn_of_poll {mid : Task σ} {event : Event}
    (polled : t.poll branch = some (event, mid))
    (silent : event = .tunError ∨ event = .udpClosed ∨ ∃ bytes source,
      event = .datagram bytes source ∧
      (t.tunnel.PeerCloses t.cfg bytes ∨ t.tunnel.Overruns t.cfg env bytes)) :
    t.SilentTurn env branch := by
  cases branch with
  | tun =>
      cases queue : t.tunRx with
      | nil => exact queue
      | cons packet rest =>
          simp only [poll, queue, Option.some.injEq, Prod.mk.injEq] at polled
          rcases silent with same | same | ⟨bytes, source, same, -⟩
          · cases polled.1.trans same
          · cases polled.1.trans same
          · cases polled.1.trans same
  | udp =>
      cases queue : t.udpRx with
      | nil => simp only [SilentTurn, queue]
      | cons message rest =>
          simp only [poll, queue, Option.some.injEq, Prod.mk.injEq] at polled
          simp only [SilentTurn, queue]
          rcases silent with same | same | ⟨bytes, source, same, ends⟩
          · cases polled.1.trans same
          · cases polled.1.trans same
          · cases polled.1.trans same
            exact ends
  | evict =>
      simp only [poll, Option.ite_none_right_eq_some, Option.some.injEq, Prod.mk.injEq] at polled
      rcases silent with same | same | ⟨bytes, source, same, -⟩
      · cases polled.2.1.trans same
      · cases polled.2.1.trans same
      · cases polled.2.1.trans same
  | pacerRetry =>
      simp only [poll, Option.ite_none_right_eq_some, Option.some.injEq, Prod.mk.injEq] at polled
      rcases silent with same | same | ⟨bytes, source, same, -⟩
      · cases polled.2.1.trans same
      · cases polled.2.1.trans same
      · cases polled.2.1.trans same
  | _ =>
      simp only [poll, Option.some.injEq, Prod.mk.injEq] at polled
      rcases silent with same | same | ⟨bytes, source, same, -⟩
      · cases polled.1.trans same
      · cases polled.1.trans same
      · cases polled.1.trans same

theorem datagram_of_panic {tunnel : Tunnel σ} {cfg : Config σ} {event : Event}
    (panics : tunnel.handleEvent cfg env event = none) :
    ∃ bytes source, event = .datagram bytes source ∧ tunnel.Overruns cfg env bytes := by
  cases event with
  | datagram bytes source =>
      exact ⟨bytes, source, rfl, Tunnel.overruns_of_panic (Option.map_eq_none_iff.mp panics)⟩
  | _ => cases panics

theorem turn_exits (calm : t.tunnel.Calm) (turned : t.turn env branch = some t') :
    t'.running = true ∨ t'.tunnel.IssuedClose t'.cfg ∨ t.SilentTurn env branch := by
  obtain ⟨running, event, mid, polled, outcome⟩ := turn_cases turned
  obtain ⟨going, sound⟩ : t.tunnel.exit = none ∧ t.panicked = false := by
    simpa [Task.running] using running
  obtain ⟨same, -, -, unharmed⟩ := poll_same polled
  rcases outcome with ⟨tunnel, stepped, rfl⟩ | ⟨panics, rfl⟩
  · rw [Tunnel.step_running _ going] at stepped
    have whole : mid.panicked = false := unharmed.trans sound
    rcases Tunnel.handleEvent_exits going (calm going) stepped
      with ⟨stays, -⟩ | ⟨-, issued | silent⟩
    · exact .inl (by simp [Task.running, stays, whole])
    · refine .inr (.inl ?_)
      simp only [same.cfg]
      exact issued
    · refine .inr (.inr (silentTurn_of_poll polled ?_))
      rcases silent with same | same | ⟨bytes, source, same, closes⟩
      · exact .inl same
      · exact .inr (.inl same)
      · exact .inr (.inr ⟨bytes, source, same, .inl closes⟩)
  · rw [Tunnel.step_running _ going] at panics
    obtain ⟨bytes, source, isDatagram, dies⟩ := datagram_of_panic panics
    exact .inr (.inr
      (silentTurn_of_poll polled (.inr (.inr ⟨bytes, source, isDatagram, .inr dies⟩))))

theorem turn_calm (calm : t.tunnel.Calm) (turned : t.turn env branch = some t') :
    t'.tunnel.Calm := by
  obtain ⟨-, event, mid, polled, ⟨tunnel, stepped, rfl⟩ | ⟨-, rfl⟩⟩ := turn_cases turned
  · exact Tunnel.step_calm stepped calm
  · rw [(poll_same polled).2.1]
    exact calm

/-- A task that was evicted: it is signalled, and if its loop has ended it has issued a
    `Close`. -/
structure Evicted (t : Task σ) : Prop where
  signalled : t.Signalled
  calm : t.tunnel.Calm
  closes : t.running = false → t.tunnel.IssuedClose t.cfg

theorem Evicted.turn (evicted : t.Evicted) (turned : t.turn env branch = some t')
    (heard : ¬ t.SilentTurn env branch) : t'.Evicted := by
  refine ⟨evicted.signalled.turn turned, turn_calm evicted.calm turned, fun ended => ?_⟩
  rcases turn_exits evicted.calm turned with running | issued | silent
  · rw [running] at ended
    cases ended
  · exact issued
  · exact absurd silent heard

end Task

section Moves

variable {ctx : ServerCtx σ} {scope : Scope} {t t' : Task σ}

theorem TaskMoves.calm (moves : TaskMoves ctx scope t t') (calm : t.tunnel.Calm) :
    t'.tunnel.Calm := by
  induction moves with
  | refl => exact calm
  | tail _ move ih =>
      cases move with
      | turn _ env branch turned => exact Task.turn_calm ih turned
      | _ => exact ih

theorem TaskMoves.evicted (moves : TaskMoves ctx scope t t') (still : ¬ scope.turns)
    (evicted : t.Evicted) :
    t'.Evicted := by
  obtain ⟨tunnel, panicked⟩ := moves.tunnel still
  refine ⟨moves.signalled evicted.signalled, moves.calm evicted.calm, fun ended => ?_⟩
  rw [Task.running, tunnel, panicked] at ended
  rw [tunnel, moves.identity.1]
  exact evicted.closes ended

end Moves

namespace Server

variable {ctx : ServerCtx σ} {s s' : Server σ} {i : Nat}

theorem Reachable.calm (reachable : Reachable ctx s) {t : Task σ} (isTask : s.tasks[i]? = some t) :
    t.tunnel.Calm := by
  obtain ⟨now, peerAuth, events, ran⟩ := reachable
  obtain ⟨env, carrier, resolved, established, moves⟩ :=
    (run_evolves ctx _ ran).spawned (Nat.zero_le i) isTask
  exact moves.calm (Tunnel.fromHandshake_calm _ _ _ _ _)

/-- The step is a silent turn of the task. -/
def SilentStep (s : Server σ) (i : Nat) : ServerEvent → Prop
  | .task j env branch => j = i ∧ ∃ t, s.tasks[i]? = some t ∧ t.SilentTurn env branch
  | _ => False

theorem step_evicted {e : ServerEvent} {t : Task σ} (isTask : s.tasks[i]? = some t)
    (evicted : t.Evicted) (stepped : s.step ctx e = some s') (heard : ¬ s.SilentStep i e) :
    ∃ t', s'.tasks[i]? = some t' ∧ t'.Evicted := by
  have idle : Evolves ctx .idle s s' → ∃ t', s'.tasks[i]? = some t' ∧ t'.Evicted :=
    fun evolves => by
    obtain ⟨t', isTask', moves⟩ := evolves.tasks isTask
    exact ⟨t', isTask', moves.evicted id evicted⟩
  cases e with
  | task j env branch =>
      by_cases own : j = i
      · subst own
        obtain ⟨t₀, t', found, turned, isTask'⟩ := stepTask_own stepped
        cases isTask.symm.trans found
        exact ⟨t', isTask', evicted.turn turned fun silent =>
          heard ⟨rfl, t, isTask, silent⟩⟩
      · exact ⟨t, (stepTask_other stepped own).trans isTask, evicted⟩
  | _ => exact idle (step_idle stepped fun _ _ _ same => by cases same)

theorem CapEvicts.evicted (reachable : Reachable ctx s) {e : ServerEvent}
    (stepped : s.step ctx e = some s') {key : Bytes} {sid : SessionId} {h : ClientHandle}
    (evicts : CapEvicts s s' key sid h) {t : Task σ} (isTask : s.tasks[h.task]? = some t)
    (running : t.running = true) :
    ∃ t', s'.tasks[h.task]? = some t' ∧ t'.Evicted := by
  have idle : Evolves ctx .idle s s' := by
    refine step_idle stepped fun j env branch same => ?_
    subst same
    have quiet := (stepTask_record stepped).capEvicted
    rw [evicts.capEvicted] at quiet
    simp at quiet
  obtain ⟨t', isTask', moves⟩ := idle.tasks isTask
  obtain ⟨t₀, found, signalled⟩ := evicts.signalled
  cases isTask'.symm.trans found
  obtain ⟨tunnel, panicked⟩ := moves.tunnel id
  refine ⟨t', isTask', signalled, moves.calm (reachable.calm isTask), fun ended => ?_⟩
  rw [Task.running, tunnel, panicked, ← Task.running, running] at ended
  cases ended

/-- A session that the cap evicts while its loop runs: as long as no turn takes a closed
    channel, a `Close` of the peer or a packet outside its group, the signal is not lost,
    and the loop does not end without a `Close`. -/
theorem evicted_session_closes (reachable : Reachable ctx s) {e : ServerEvent}
    (stepped : s.step ctx e = some s') {key : Bytes} {sid : SessionId} {h : ClientHandle}
    (evicts : CapEvicts s s' key sid h) {t : Task σ} (isTask : s.tasks[h.task]? = some t)
    (running : t.running = true) {events : List ServerEvent} {s'' : Server σ}
    (heard : Runs.Along (step ctx) (fun mid e => ¬ mid.SilentStep h.task e) s' events)
    (ran : Runs.run (step ctx) s' events = some s'') :
    ∃ t'', s''.tasks[h.task]? = some t'' ∧ t''.Signalled ∧
      (t''.running = false → t''.tunnel.IssuedClose t''.cfg) := by
  have start := evicts.evicted reachable stepped isTask running
  obtain ⟨t'', isTask'', evicted⟩ :=
    Runs.invariant_along (fun s => ∃ t, s.tasks[h.task]? = some t ∧ t.Evicted)
    (fun _ _ _ ok stepped ⟨_, isTask, evicted⟩ => step_evicted isTask evicted stepped ok)
    heard ran start
  exact ⟨t'', isTask'', evicted.signalled, evicted.closes⟩

/-! ## One client with a cap of one session -/

theorem oneCapped_evicts : ∃ s' key sid h, oneCapped.step (.small .udp 1) connectAgain =
      some s' ∧ CapEvicts oneCapped s' key sid h ∧ h.task = 0 := by
  have reachable : Reachable (.small .udp 1) oneCapped := ⟨0, .openMode, connectOnce, rfl⟩
  have evicts : (oneCapped.step (.small .udp 1) connectAgain).any
    (·.capEvicted.length == 1) = true := by
    decide +kernel
  have before : oneCapped.capEvicted.length = 0 := by decide +kernel
  have single : oneCapped.sessions.entries.all (·.2.task == 0) = true := by decide +kernel
  obtain ⟨s', stepped, one⟩ := (Option.any_eq_true _ _).mp evicts
  cases step_tableStep reachable.owned reachable.capped.closedEnded stepped with
  | carries _ same =>
      rw [same, before] at one
      cases one
  | joins _ _ _ _ _ same =>
      rw [same, before] at one
      cases one
  | evicts key sid h evicted =>
      refine ⟨s', key, sid, h, stepped, evicted, ?_⟩
      exact eq_of_beq (List.all_eq_true.mp single _ (AList.mem_lookup_iff.mp evicted.victim.found))

theorem oneCapped_running : ∃ t, oneCapped.tasks[0]? = some t ∧ t.running = true := by
  have running : oneCapped.tasks[0]?.any Task.running = true := by decide +kernel
  exact (Option.any_eq_true _ _).mp running

/-- The evicted loop takes its closed UDP channel before the signal, and ends without a
    `Close`. -/
theorem evicted_in_silence :
    ¬ ∀ (s s' s'' : Server Unit) (e : ServerEvent) (key : Bytes) (sid : SessionId)
    (h : ClientHandle) (t t'' : Task Unit) (events : List ServerEvent), Reachable
    (.small .udp 1) s → s.step (.small .udp 1) e = some s' →
      CapEvicts s s' key sid h → s.tasks[h.task]? = some t → t.running = true →
      Runs.run (step (.small .udp 1)) s' events = some s'' → s''.tasks[h.task]? =
        some t'' → t''.running = false →
      t''.tunnel.IssuedClose t''.cfg := by
  intro closes
  obtain ⟨s', key, sid, h, stepped, evicts, first⟩ := oneCapped_evicts
  obtain ⟨t, isTask, running⟩ := oneCapped_running
  have ends : ((oneCapped.step (.small .udp 1) connectAgain).bind fun s' =>
      Runs.run (step (.small .udp 1)) s' [.task 0 (.small 3) .udp]).any (fun s'' =>
        s''.tasks[0]?.any fun t => !t.running && t.tunnel.seals.isEmpty) = true := by decide +kernel
  rw [stepped, Option.bind_some] at ends
  obtain ⟨s'', ran, found⟩ := (Option.any_eq_true _ _).mp ends
  obtain ⟨t'', isTask'', silent⟩ := (Option.any_eq_true _ _).mp found
  obtain ⟨ended, unsealed⟩ := Bool.and_eq_true_iff.mp silent
  rw [← first] at isTask isTask''
  obtain ⟨hdr, -, sealed⟩ := closes oneCapped s' s'' connectAgain key sid h t t'' _
    ⟨0, .openMode, connectOnce, rfl⟩ stepped evicts isTask running ran isTask''
      (by simpa using ended)
  rw [List.isEmpty_iff.mp unsealed] at sealed
  cases sealed

/-- When it takes the signal first, it ends with a `Close`. -/
theorem evicted_with_close : ∃ s' s'' t'', oneCapped.step (.small .udp 1) connectAgain =
      some s' ∧ Runs.run (step (.small .udp 1)) s' [.task 0 (.small 3) .evict] = some s'' ∧
    s''.tasks[0]? = some t'' ∧ t''.running = false ∧ t''.tunnel.IssuedClose t''.cfg := by
  obtain ⟨s', key, sid, h, stepped, evicts, first⟩ := oneCapped_evicts
  obtain ⟨t, isTask, running⟩ := oneCapped_running
  have ends : ((oneCapped.step (.small .udp 1) connectAgain).bind fun s' =>
      Runs.run (step (.small .udp 1)) s' [.task 0 (.small 3) .evict]).any (fun s'' =>
        s''.tasks[0]?.any fun t => !t.running) = true := by decide +kernel
  rw [stepped, Option.bind_some] at ends
  obtain ⟨s'', ran, found⟩ := (Option.any_eq_true _ _).mp ends
  have heard : Runs.Along (step (.small .udp 1)) (fun mid e => ¬ mid.SilentStep h.task e) s'
      [.task 0 (.small 3) .evict] := by
    refine Runs.along_cons.mpr ⟨?_, fun _ _ => Runs.along_nil _ _⟩
    rintro ⟨-, t, -, silent⟩
    exact silent
  rw [← first] at isTask found
  obtain ⟨t'', isTask'', -, closes⟩ :=
    evicted_session_closes ⟨0, .openMode, connectOnce, rfl⟩ stepped evicts isTask
    running heard ran
  rw [isTask'', Option.any_some] at found
  have ended : t''.running = false := by simpa using found
  exact ⟨s', s'', t'', stepped, ran, first ▸ isTask'', ended, closes ended⟩

end Server

end Rustnies
