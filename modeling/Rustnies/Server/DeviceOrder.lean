import Rustnies.Server.Channels

/-! # The order of packets at the server's TUN device

A packet that the server reads from its TUN device reaches one session at most, in the
order of the reads. What it writes to the device is, session by session, what the session
decrypted, in that order and without a gap.
-/

namespace Rustnies.Server

open Deals

variable {σ : Type} {ctx : ServerCtx σ} {s s' : Server σ}

/-! ## From the device to the sessions -/

def deviceRead : ServerEvent → List Bytes
  | .dispatcher _ (.tun packet) => [packet]
  | _ => []

/-- The packets that a run reads from the TUN device. -/
def deviceReads (events : List ServerEvent) : List Bytes := events.flatMap deviceRead

/-- The log says which task was dealt which packet of the device. -/
structure Routed (s : Server σ) (reads : List Bytes) (log : List (Nat × Bytes)) : Prop where
  ordered : (log.map Prod.snd ++ s.waiting).Sublist reads
  tasks : ∀ i t, s.tasks[i]? = some t → t.routed = dealt log i
  named : ∀ e ∈ log, e.1 < s.tasks.length

variable {reads : List Bytes} {log : List (Nat × Bytes)}

theorem Routed.fresh (routed : s.Routed reads log) {i : Nat} (beyond : s.tasks.length ≤ i) :
    dealt log i = [] :=
  dealt_eq_nil fun e member same => Nat.not_lt_of_le beyond (same ▸ routed.named e member)

theorem Routed.keep (routed : s.Routed reads log) (more : List Bytes)
    (waiting : s'.waiting.Sublist (s.waiting ++ more)) (grows : s.tasks.length ≤ s'.tasks.length)
    (tasks : ∀ i t',
      s'.tasks[i]? = some t' → (∃ t, s.tasks[i]? = some t ∧ t'.routed = t.routed) ∨
      (s.tasks.length ≤ i ∧ t'.routed = [])) : s'.Routed (reads ++ more) log where
  ordered := by
    have both := routed.ordered.append (List.Sublist.refl more)
    rw [List.append_assoc] at both
    exact ((List.Sublist.refl _).append waiting).trans both
  tasks i t' isTask := by
    rcases tasks i t' isTask with ⟨t, isTask, same⟩ | ⟨beyond, nothing⟩
    · exact same.trans (routed.tasks i t isTask)
    · exact nothing.trans (routed.fresh beyond).symm
  named e member := Nat.lt_of_lt_of_le (routed.named e member) grows

theorem Routed.push (routed : s.Routed reads log) {i : Nat} {packet : Bytes}
    (inside : i < s.tasks.length) (more : List Bytes) (given : s.waiting ++ more = [packet])
    (waiting : s'.waiting = []) (pushed : s'.tasks = (s.pushTun i packet).tasks) :
    s'.Routed (reads ++ more) (log ++ [(i, packet)]) where
  ordered := by
    have both := routed.ordered.append (List.Sublist.refl more)
    rw [List.append_assoc, given] at both
    rw [waiting, List.append_nil, List.map_append]
    exact both
  tasks j t' isTask := by
    rw [pushed, pushTun, updateTask, List.getElem?_modify, Option.map_eq_map,
      Option.map_eq_some_iff] at isTask
    obtain ⟨t, isTask, rfl⟩ := isTask
    have before := routed.tasks j t isTask
    rw [dealt_append, ← before]
    by_cases here : i = j
    · rw [if_pos here, here, show dealt [(j, packet)] j = [packet] from dealt_tagged j [packet]]
    · rw [if_neg here, show dealt [(i, packet)] j = [] from dealt_tagged_ne here [packet],
        List.append_nil]
  named e member := by
    rw [pushed, pushTun, updateTask, List.length_modify]
    rcases List.mem_append.mp member with before | now
    · exact routed.named e before
    · rw [List.mem_singleton.mp now]
      exact inside

theorem stepTask_tasks {i : Nat} {env : Env} {branch : Branch}
    (stepped : s.stepTask i env branch = some s') :
    ∃ t t', s.tasks[i]? = some t ∧ t.turn env branch = some t' ∧
    s'.tasks = s.tasks.set i t' := by
  unfold stepTask at stepped
  cases isTask : s.tasks[i]? with
  | none => simp [isTask] at stepped
  | some t =>
      simp only [isTask, Option.map_eq_some_iff] at stepped
      obtain ⟨t', turned, rfl⟩ := stepped
      refine ⟨t, t', rfl, turned, ?_⟩
      split <;> rfl

theorem stepTask_waiting {i : Nat} {env : Env} {branch : Branch}
    (stepped : s.stepTask i env branch = some s') :
    s'.waiting = s.waiting ∧ s'.tunOut = s.tunOut ∧ s'.stopped = s.stopped := by
  unfold stepTask at stepped
  cases isTask : s.tasks[i]? with
  | none => simp [isTask] at stepped
  | some t =>
      simp only [isTask, Option.map_eq_some_iff] at stepped
      obtain ⟨t', -, rfl⟩ := stepped
      split
      · exact ⟨rfl, rfl, rfl⟩
      · exact ⟨rfl, rfl, rfl⟩

theorem getElem?_set_cases {α : Type} {xs : List α} {i j : Nat} {x y : α}
    (found : (xs.set i x)[j]? = some y) :
    (i = j ∧ y = x) ∨ xs[j]? = some y := by
  rw [List.getElem?_set] at found
  split at found
  · rename_i same
    rw [Option.ite_none_right_eq_some] at found
    exact .inl ⟨same, (Option.some.inj found.2).symm⟩
  · exact .inr found

theorem handlePost_rest (ctx : ServerCtx σ) (s : Server σ) (p : Post) (rest : List Post) :
    (s.handlePost ctx p rest).waiting = s.waiting ∧ (s.handlePost ctx p rest).stopped =
    s.stopped := by
  simp only [handlePost, learnTunIp]
  split
  · split
    · exact ⟨rfl, rfl⟩
    · exact ⟨rfl, rfl⟩
  · exact ⟨rfl, rfl⟩

theorem Routed.step (routed : s.Routed reads log) (owned : s.Owned) {e : ServerEvent}
    (stepped : s.step ctx e = some s') : ∃ log', s'.Routed (reads ++ deviceRead e) log' := by
  cases step_flow owned stepped with
  | calm calm =>
      refine ⟨log, routed.keep _ (calm.waiting.trans (List.sublist_append_left _ _)) calm.grows
        fun i t' isTask => ?_⟩
      exact (calm.tasks i t' isTask).imp (fun ⟨t, isTask, same, _⟩ => ⟨t, isTask, same⟩)
        fun ⟨new, nothing, _⟩ => ⟨new, nothing⟩
  | turn turned =>
      rename_i i env branch
      obtain ⟨t, t', isTask, moved, tasks⟩ := stepTask_tasks turned
      obtain ⟨waiting, -⟩ := stepTask_waiting turned
      refine ⟨log, routed.keep _ (waiting ▸ List.sublist_append_left _ _)
        (by rw [tasks, List.length_set]) ?_⟩
      intro j u isTask'
      rw [tasks] at isTask'
      rcases getElem?_set_cases isTask' with ⟨rfl, rfl⟩ | before
      · exact .inl ⟨t, isTask, (Task.turn_same moved).routed⟩
      · exact .inl ⟨u, before, rfl⟩
  | routes inside free given =>
      rename_i env packet i
      rcases given with rfl | rfl
      · exact ⟨_, routed.push inside [packet] (by rw [free]; rfl) free rfl⟩
      · refine ⟨log, routed.keep [packet] (List.sublist_append_right _ _) (Nat.le_refl _)
          fun j t isTask => ?_⟩
        exact .inl ⟨t, isTask, rfl⟩
  | resumes inside held =>
      rename_i env n i packet
      exact ⟨_, routed.push inside [] (by simp only [waiting, held, List.append_nil]) rfl rfl⟩
  | writes going queue =>
      rename_i env p rest
      obtain ⟨waiting, -⟩ := handlePost_rest ctx s p rest
      refine ⟨log, routed.keep _ (waiting ▸ List.sublist_append_left _ _)
        (by rw [handlePost_tasks]) fun j t isTask => ?_⟩
      rw [handlePost_tasks] at isTask
      exact .inl ⟨t, isTask, rfl⟩
  | stops =>
      refine ⟨log, routed.keep _ (List.sublist_append_left _ _) (by simp [shutdown])
        fun j t' isTask => ?_⟩
      simp only [shutdown, List.getElem?_map, Option.map_eq_some_iff] at isTask
      obtain ⟨t, isTask, rfl⟩ := isTask
      exact .inl ⟨t, isTask, rfl⟩

theorem run_routed {events : List ServerEvent} (routed : s.Routed reads log) (owned : s.Owned)
    (ran : Runs.run (Server.step ctx) s events = some s') :
    ∃ log', s'.Routed (reads ++ deviceReads events) log' := by
  induction events generalizing s reads log with
  | nil =>
      cases ran
      rw [deviceReads, List.flatMap_nil, List.append_nil]
      exact ⟨log, routed⟩
  | cons e events ih =>
      obtain ⟨mid, stepped, rest⟩ := Runs.run_cons_eq_some.mp ran
      obtain ⟨log', after⟩ := routed.step owned stepped
      have later := owned.evolves (step_evolves ctx .any s stepped (allows_any ctx s e))
      rw [deviceReads, List.flatMap_cons, ← List.append_assoc]
      exact ih after later rest

theorem init_owned (now : Instant) (peerAuth : PeerAuth) : (init now peerAuth : Server σ).Owned :=
  fun _ _ found => nomatch found

theorem init_routed (now : Instant) (peerAuth : PeerAuth) :
    (init now peerAuth : Server σ).Routed [] [] :=
  ⟨List.Sublist.refl _, fun _ _ isTask => (nomatch isTask), fun _ member => (nomatch member)⟩

/-- A task sends what it was given. -/
theorem task_sends_routed {now : Instant} {peerAuth : PeerAuth} {events : List ServerEvent}
    (ran : Runs.run (Server.step ctx) (init now peerAuth) events = some s) {i : Nat} {t : Task σ}
    (isTask : s.tasks[i]? = some t) : t.tunnel.dataSent.Sublist t.routed := by
  obtain ⟨env, carrier, resolved, established, turns, last, took⟩ := task_took ran isTask
  obtain ⟨silent, unparked, -⟩ := newTask_starts ctx env carrier resolved established
  refine (Tunnel.run_sends_reads silent unparked took.ran).trans ?_
  rw [← took.tun, Tunnel.tunReads, Tunnel.tunReads, List.filterMap_append, List.append_assoc]
  exact List.sublist_append_left _ _

/-- In every run of the server, the packets that were put into the sessions' channels are
    the entries of one log, each for one session: packets that were read from the TUN
    device, each once and in the order of the reads. What a session sent its client is
    some of the packets that were put into its channel, each once and in that order. -/
theorem sessions_share_reads {now : Instant} {peerAuth : PeerAuth} {events : List ServerEvent}
    (ran : Runs.run (Server.step ctx) (init now peerAuth) events = some s) :
    ∃ log : List (Nat × Bytes), (log.map Prod.snd).Sublist (deviceReads events) ∧
      (∀ e ∈ log, e.1 < s.tasks.length) ∧
      ∀ (i : Nat) (t : Task σ), s.tasks[i]? = some t →
        t.routed = dealt log i ∧ t.tunnel.dataSent.Sublist t.routed := by
  obtain ⟨log, routed⟩ := run_routed (init_routed now peerAuth) (init_owned now peerAuth) ran
  refine ⟨log, (List.sublist_append_left _ _).trans routed.ordered, routed.named,
    fun i t isTask => ?_⟩
  exact ⟨routed.tasks i t isTask, task_sends_routed ran isTask⟩

/-- The server reads one packet for each of the addresses that two clients sent from, and
    the task of each client sends its own. -/
def returnTraffic : List ServerEvent :=
  ownAddress ++ [takesPost, takesPost, .dispatcher (.small 5 1) (.tun (smallPacket 1 2)),
    .dispatcher (.small 5 1) (.tun (smallPacket 1 3)), .task 0 (.small 6) .tun,
    .task 1 (.small 6) .tun]

theorem returnTraffic_shared : ∃ s first second,
    Runs.run (Server.step (ServerCtx.small .udp 0)) (init 0 .openMode) returnTraffic = some s ∧
    s.tasks[0]? = some first ∧ first.tunnel.dataSent = [smallPacket 1 2] ∧
    s.tasks[1]? = some second ∧ second.tunnel.dataSent = [smallPacket 1 3] ∧
    ∃ log : List (Nat × Bytes), (log.map Prod.snd).Sublist (deviceReads returnTraffic) ∧
      (∀ e ∈ log, e.1 < s.tasks.length) ∧
      ∀ (i : Nat) (t : Task Unit), s.tasks[i]? = some t →
        t.routed = dealt log i ∧ t.tunnel.dataSent.Sublist t.routed := by
  have evaluated :
    (Runs.run (Server.step (ServerCtx.small .udp 0)) (init 0 .openMode) returnTraffic).any
    (fun s => (s.tasks[0]?.any fun t => decide (t.tunnel.dataSent = [smallPacket 1 2])) &&
    s.tasks[1]?.any fun t => decide (t.tunnel.dataSent = [smallPacket 1 3])) = true := by
    decide +kernel
  obtain ⟨s, ran, checked⟩ := (Option.any_eq_true _ _).mp evaluated
  obtain ⟨first, second⟩ := Bool.and_eq_true_iff.mp checked
  obtain ⟨t, isFirst, sent⟩ := (Option.any_eq_true _ _).mp first
  obtain ⟨u, isSecond, sent'⟩ := (Option.any_eq_true _ _).mp second
  exact ⟨s, t, u, ran, isFirst, of_decide_eq_true sent, isSecond, of_decide_eq_true sent',
    sessions_share_reads ran⟩

/-! ## From the sessions to the device -/

/-- The packets that a task posted, among some posts. -/
def postedBy (posts : List Post) (i : Nat) : List Bytes :=
  dealt (posts.map fun p => (p.task, p.packet)) i

theorem postedBy_append (left right : List Post) (i : Nat) :
    postedBy (left ++ right) i = postedBy left i ++ postedBy right i := by
  rw [postedBy, List.map_append, dealt_append]
  rfl

theorem postedBy_turn (i j : Nat) (sid : SessionId) (writes : List TunWrite) :
    postedBy (writes.map fun w => ⟨i, sid, w.bytes⟩) j = if i = j then writes.map TunWrite.bytes
    else [] := by
  have tagged : (writes.map fun w => (⟨i, sid, w.bytes⟩ : Post)).map
    (fun p => (p.task, p.packet)) = (writes.map TunWrite.bytes).map fun packet => (i, packet) := by
    rw [List.map_map, List.map_map]
    rfl
  rw [postedBy, tagged]
  split
  · rename_i same
    rw [same, dealt_tagged]
  · rename_i other
    exact dealt_tagged_ne other _

/-- What the device was given and what is on its way to it is what the tunnels wrote; a
    server that has stopped keeps the part that the device was given. -/
structure Posted (s : Server σ) : Prop where
  named : ∀ p ∈ s.tunOut ++ s.tunWriteRx, p.task < s.tasks.length
  front : ∀ i t, s.tasks[i]? = some t → postedBy s.tunOut i <+:
    t.tunnel.tunWrites.map TunWrite.bytes
  whole : s.stopped = false → ∀ i t, s.tasks[i]? = some t →
    postedBy (s.tunOut ++ s.tunWriteRx) i = t.tunnel.tunWrites.map TunWrite.bytes

theorem Posted.fresh (posted : s.Posted) {i : Nat} (beyond : s.tasks.length ≤ i) :
    postedBy (s.tunOut ++ s.tunWriteRx) i = [] := by
  refine dealt_eq_nil fun e member same => ?_
  obtain ⟨p, listed, rfl⟩ := List.mem_map.mp member
  exact Nat.not_lt_of_le beyond (same ▸ posted.named p listed)

theorem Posted.keep (posted : s.Posted) (grows : s.tasks.length ≤ s'.tasks.length)
    (tunOut : s'.tunOut = s.tunOut) (queue : s'.tunWriteRx = s.tunWriteRx)
    (stopped : s'.stopped = s.stopped)
    (tasks : ∀ i t',
      s'.tasks[i]? = some t' → (∃ t, s.tasks[i]? = some t ∧
      t'.tunnel.tunWrites = t.tunnel.tunWrites) ∨
      (s.tasks.length ≤ i ∧ t'.tunnel.tunWrites = [])) : s'.Posted where
  named p member := by
    rw [tunOut, queue] at member
    exact Nat.lt_of_lt_of_le (posted.named p member) grows
  front i t' isTask := by
    rw [tunOut]
    rcases tasks i t' isTask with ⟨t, isTask, same⟩ | ⟨beyond, -⟩
    · rw [same]
      exact posted.front i t isTask
    · have none := posted.fresh beyond
      rw [postedBy_append, List.append_eq_nil_iff] at none
      rw [none.1]
      exact List.nil_prefix
  whole going i t' isTask := by
    rw [tunOut, queue]
    rcases tasks i t' isTask with ⟨t, isTask, same⟩ | ⟨beyond, nothing⟩
    · rw [same]
      exact posted.whole (stopped ▸ going) i t isTask
    · rw [nothing, posted.fresh beyond]
      rfl

theorem Posted.pushed (posted : s.Posted) (i : Nat) (packet : Bytes)
    (pushed : s'.tasks = (s.pushTun i packet).tasks) (tunOut : s'.tunOut = s.tunOut)
    (queue : s'.tunWriteRx = s.tunWriteRx) (stopped : s'.stopped = s.stopped) :
    s'.Posted := by
  refine posted.keep ?_ tunOut queue stopped fun j t' isTask => .inl ?_
  · rw [pushed, pushTun, updateTask, List.length_modify]
  · rw [pushed, pushTun, updateTask, List.getElem?_modify, Option.map_eq_map,
      Option.map_eq_some_iff] at isTask
    obtain ⟨t, isTask, rfl⟩ := isTask
    refine ⟨t, isTask, ?_⟩
    split <;> rfl

theorem turn_writes {t t' : Task σ} {env : Env} {branch : Branch}
    (turned : t.turn env branch = some t') :
    t.tunnel.tunWrites <+: t'.tunnel.tunWrites := by
  obtain ⟨-, event, mid, polled, ⟨tunnel, stepped, rfl⟩ | ⟨-, rfl⟩⟩ :=
    Task.turn_cases turned
  · exact Tunnel.step_writes stepped
  · rw [show mid.tunnel = t.tunnel from (Task.poll_same polled).2.1]

theorem Posted.turn (posted : s.Posted) {i : Nat} {env : Env} {branch : Branch}
    (stepped : s.stepTask i env branch = some s') : s'.Posted := by
  obtain ⟨t, t', isTask, turned, tasks⟩ := stepTask_tasks stepped
  obtain ⟨-, tunOut, stopped⟩ := stepTask_waiting stepped
  obtain ⟨more, grown⟩ := turn_writes turned
  have inside := (List.getElem?_eq_some_iff.mp isTask).1
  have queue : s'.tunWriteRx = if s.stopped then s.tunWriteRx
      else s.tunWriteRx ++ more.map fun w => ⟨i, t.sessionId, w.bytes⟩ := by
    simp only [stepTask, isTask, turned, Option.map_some, Option.some.injEq] at stepped
    rw [← stepped, ← grown, List.drop_left]
    split <;> rfl
  refine ⟨fun p member => ?_, fun j u isTask' => ?_, fun going j u isTask' => ?_⟩
  · rw [tasks, List.length_set]
    rw [tunOut, queue] at member
    split at member
    · exact posted.named p member
    · rw [← List.append_assoc] at member
      rcases List.mem_append.mp member with before | now
      · exact posted.named p before
      · obtain ⟨w, -, rfl⟩ := List.mem_map.mp now
        exact inside
  · rw [tasks] at isTask'
    rw [tunOut]
    rcases getElem?_set_cases isTask' with ⟨rfl, rfl⟩ | before
    · rw [← grown, List.map_append]
      exact (posted.front i t isTask).trans (List.prefix_append _ _)
    · exact posted.front j u before
  · rw [stopped] at going
    rw [tunOut, queue, going, if_neg Bool.false_ne_true, ← List.append_assoc, postedBy_append,
      postedBy_turn]
    rw [tasks, List.getElem?_set] at isTask'
    split at isTask'
    · rename_i same
      cases isTask'
      rw [if_pos same, ← same, posted.whole going i t isTask, ← grown, List.map_append]
    · rename_i other
      rw [if_neg other, List.append_nil]
      exact posted.whole going j u isTask'

theorem Posted.step (posted : s.Posted) (owned : s.Owned) {e : ServerEvent}
    (stepped : s.step ctx e = some s') :
    s'.Posted := by
  cases step_flow owned stepped with
  | calm calm =>
      refine posted.keep calm.grows calm.tunOut calm.tunWriteRx calm.stopped fun i t' isTask => ?_
      exact (calm.tasks i t' isTask).imp (fun ⟨t, isTask, _, same⟩ => ⟨t, isTask, same⟩)
        fun ⟨new, _, nothing⟩ => ⟨new, nothing⟩
  | turn turned => exact posted.turn turned
  | routes inside free given =>
      rename_i env packet i
      rcases given with rfl | rfl
      · exact posted.pushed i packet rfl rfl rfl rfl
      · exact posted.keep (Nat.le_refl _) rfl rfl rfl fun j t isTask => .inl ⟨t, isTask, rfl⟩
  | resumes inside held =>
      rename_i env n i packet
      exact posted.pushed i packet rfl rfl rfl rfl
  | writes going queue =>
      rename_i env p rest
      obtain ⟨tunOut, left⟩ := handlePost_queues ctx s p rest
      obtain ⟨-, stopped⟩ := handlePost_rest ctx s p rest
      have same : (s.handlePost ctx p rest).tunOut ++ (s.handlePost ctx p rest).tunWriteRx =
        s.tunOut ++ s.tunWriteRx := by
        rw [tunOut, left, queue, List.append_assoc]
        rfl
      refine ⟨?_, fun i t isTask => ?_, ?_⟩
      · rw [same, handlePost_tasks]
        exact posted.named
      · rw [handlePost_tasks] at isTask
        rw [← posted.whole going i t isTask, ← same, postedBy_append]
        exact List.prefix_append _ _
      · rw [same, handlePost_tasks, stopped]
        exact posted.whole
  | stops =>
      refine ⟨fun p member => ?_, fun i t' isTask => ?_, fun going => nomatch going⟩
      · simp only [shutdown, List.append_nil, List.length_map] at member ⊢
        exact posted.named p (List.mem_append_left _ member)
      · simp only [shutdown, List.getElem?_map, Option.map_eq_some_iff] at isTask
        obtain ⟨t, isTask, rfl⟩ := isTask
        exact posted.front i t isTask

theorem Reachable.posted (reachable : Reachable ctx s) : s.Posted := by
  obtain ⟨now, peerAuth, events, ran⟩ := reachable
  have start : (init now peerAuth : Server σ).Posted :=
    ⟨fun _ member => (nomatch member), fun _ _ isTask => (nomatch isTask), fun _ _ _ isTask =>
      (nomatch isTask)⟩
  have keeps : ∀ (s : Server σ) e s', Server.step ctx s e = some s' → s.Owned ∧
    s.Posted → s'.Owned ∧ s'.Posted :=
    fun s e s' stepped inv =>
      ⟨inv.1.evolves (step_evolves ctx .any s stepped (allows_any ctx s e)),
        inv.2.step inv.1 stepped⟩
  have kept := Runs.invariant keeps ran ⟨init_owned now peerAuth, start⟩
  exact kept.2

/-- Every packet that the server writes to its TUN device for a session is one that the
    session's tunnel decrypted, and in that order without a gap: what the device was
    given is the front of what the tunnel wrote, and until the server stops the rest is
    on its way. -/
theorem writes_in_order (reachable : Reachable ctx s) {i : Nat} {t : Task σ}
    (isTask : s.tasks[i]? = some t) :
    postedBy s.tunOut i <+: t.tunnel.tunWrites.map TunWrite.bytes ∧
      (s.stopped = false → postedBy (s.tunOut ++ s.tunWriteRx) i =
        t.tunnel.tunWrites.map TunWrite.bytes) :=
  ⟨reachable.posted.front i t isTask, fun going => reachable.posted.whole going i t isTask⟩

theorem returnTraffic_in_order : ∃ s t, Reachable (ServerCtx.small .udp 0) s ∧
    s.tasks[0]? = some t ∧ postedBy s.tunOut 0 = [smallPacket 2 1] ∧
    postedBy s.tunOut 0 <+: t.tunnel.tunWrites.map TunWrite.bytes := by
  have evaluated :
    (Runs.run (Server.step (ServerCtx.small .udp 0)) (init 0 .openMode) returnTraffic).any (fun s =>
      s.tasks[0]?.isSome && decide (postedBy s.tunOut 0 = [smallPacket 2 1])) = true := by
    decide +kernel
  obtain ⟨s, ran, checked⟩ := (Option.any_eq_true _ _).mp evaluated
  obtain ⟨isSome, posted⟩ := (Bool.and_eq_true _ _).mp checked
  obtain ⟨t, isTask⟩ := Option.isSome_iff_exists.mp isSome
  have reachable : Reachable (ServerCtx.small .udp 0) s := ⟨0, .openMode, returnTraffic, ran⟩
  exact ⟨s, t, reachable, isTask, of_decide_eq_true posted,
    (writes_in_order reachable isTask).1⟩

end Rustnies.Server
