import Rustnies.RttEstimator
import Rustnies.Tunnel.Fates
import Rustnies.Tunnel.View

/-! # The round trips that reach the estimator

An acknowledgement tells a round trip of at most `MAX_RTT_SAMPLE`. A pong tells the age of
the timestamp that it echoes, and `handle_pong` puts no bound on it: the authenticated peer
chooses the sample. The samples of a run are recorded beside the controller, each with the
state that it met, and the longest age is found at which none of them overflows.
-/

namespace Rustnies

/-! ## Recording the samples -/

/-- The state of a controller, beside the samples that it was told and the states they met. -/
structure Sampled (σ : Type) where
  state : σ
  samples : List (σ × Duration) := []

variable {σ τ : Type}

/-- The controller with a record of its samples. -/
def CongestionControl.sampled (cc : CongestionControl σ) : CongestionControl (Sampled σ) where
  sendBudget s := cc.sendBudget s.state
  maySend now s len :=
    ((cc.maySend now s.state len).1, { s with state := (cc.maySend now s.state len).2 })
  nextSendDeadline now s := cc.nextSendDeadline now s.state
  onSendBytes now s len := { s with state := cc.onSendBytes now s.state len }
  refundSendBytes s bytes := { s with state := cc.refundSendBytes s.state bytes }
  trySendParity now s len :=
    ((cc.trySendParity now s.state len).1, { s with state := (cc.trySendParity now s.state len).2 })
  release s bytes := { s with state := cc.release s.state bytes }
  onAckBytes now s bytes := { s with state := cc.onAckBytes now s.state bytes }
  onAckWithRtt now s bytes rtt :=
    { state := cc.onAckWithRtt now s.state bytes rtt, samples := s.samples ++ [(s.state, rtt)] }
  onLoss now s lost total := { s with state := cc.onLoss now s.state lost total }
  onRttSample s rtt :=
    { state := cc.onRttSample s.state rtt, samples := s.samples ++ [(s.state, rtt)] }
  rto s := cc.rto s.state

/-- The record changes nothing. -/
theorem CongestionControl.sampled_projects (cc : CongestionControl σ) :
    cc.sampled.Projects cc Sampled.state := by
  constructor
  all_goals
    intros
    rfl

theorem CongestionControl.PreservesOn.sampled {cc : CongestionControl σ}
    {allowed : Duration → Prop} {good : σ → Prop} (preserves : cc.PreservesOn allowed good)
    {sound : σ → Duration → Prop} (each : ∀ s rtt, good s → allowed rtt → sound s rtt) :
    cc.sampled.PreservesOn allowed fun s => good s.state ∧ ∀ call ∈ s.samples,
    sound call.1 call.2 := by
  have told : ∀ (s : Sampled σ) rtt,
    allowed rtt → good s.state → (∀ call ∈ s.samples, sound call.1 call.2) → ∀ call ∈
    s.samples ++ [(s.state, rtt)], sound call.1 call.2 := by
    intro s rtt short holds before call member
    rcases List.mem_append.mp member with old | new
    · exact before call old
    · rw [List.mem_singleton.mp new]
      exact each s.state rtt holds short
  constructor
  · exact fun now s len holds => ⟨preserves.asks now s.state len holds.1, holds.2⟩
  · exact fun now s len holds => ⟨preserves.reserves now s.state len holds.1, holds.2⟩
  · exact fun s bytes holds => ⟨preserves.refunds s.state bytes holds.1, holds.2⟩
  · exact fun now s len holds => ⟨preserves.parity now s.state len holds.1, holds.2⟩
  · exact fun s bytes holds => ⟨preserves.releases s.state bytes holds.1, holds.2⟩
  · exact fun now s bytes holds => ⟨preserves.acks now s.state bytes holds.1, holds.2⟩
  · intro now s bytes rtt short holds
    exact ⟨preserves.acksWithRtt now s.state bytes rtt short holds.1,
      told s rtt short holds.1 holds.2⟩
  · exact fun now s lost total holds =>
      ⟨preserves.losses now s.state lost total holds.1, holds.2⟩
  · intro s rtt short holds
    exact ⟨preserves.samples s.state rtt short holds.1, told s rtt short holds.1 holds.2⟩

/-! ## The estimator of `tcp-reno` -/

namespace CongestionController

variable {F : Type} {f64 : Floating F} (c : CongestionController F) {limit : Nat}

/-- What the estimator holds: only a sample changes it. -/
def rttState (c : CongestionController F) : Duration × Duration × Duration :=
  (c.srtt, c.rttvar, c.rto)

theorem maySend_rttState (now : Instant) (len : Nat) :
    (c.maySend f64 now len).2.rttState = c.rttState := by
  rcases c.maySend_cases f64 now len with same | ⟨-, admitted⟩
  · rw [same]
  · rw [admitted]
    rfl

theorem refundSendBytes_rttState (bytes : Nat) :
    (c.refundSendBytes f64 bytes).rttState = c.rttState := by
  simp only [refundSendBytes]
  split
  · rfl
  · rfl

theorem trySendParity_rttState (now : Instant) (len : Nat) :
    (c.trySendParity f64 now len).2.rttState = c.rttState := by
  simp only [trySendParity]
  split
  · rfl
  · rfl

theorem ackCommon_rttState (bytes : Nat) : (c.ackCommon f64 bytes).rttState = c.rttState := rfl

theorem onLoss_rttState (lost total : Nat) : (c.onLoss f64 lost total).rttState = c.rttState := by
  simp only [onLoss]
  split
  · rfl
  · rfl

variable {c}

theorem RttBounded.of_same {c' : CongestionController F} (bounded : c.RttBounded limit)
    (same : c'.rttState = c.rttState) : c'.RttBounded limit := by
  obtain ⟨srtt, rest⟩ := Prod.mk.inj same
  obtain ⟨rttvar, rto⟩ := Prod.mk.inj rest
  rwa [RttBounded, srtt, rttvar, rto]

theorem new_rttBounded (mtu : UInt32) (wide : 100000007 ≤ limit) :
    ((CongestionController.new f64).setMtu mtu).RttBounded limit := by
  have fresh : (CongestionController.new f64).RttBounded limit := by
    refine ⟨(by decide : 1000 ≤ INITIAL_RTT), wide, ?_,
      (by decide : INITIAL_RTT ≤ INITIAL_RTT * 2), (by decide : 1000000 ≤ INITIAL_RTT * 2)⟩
    exact Nat.le_trans (by decide : INITIAL_RTT / 2 ≤ 100000007) wide
  simp only [setMtu]
  split
  · exact fresh
  · exact fresh

/-- A sample that the word has room for, and what the estimator answers to it. -/
structure SoundSample (f64 : Floating F) (c : CongestionController F) (rtt : Nat) : Prop where
  fits : RttFits c.srtt c.rttvar rtt
  positive : 0 < (c.onRttSample f64 rtt).srtt
  aboveSrtt : (c.onRttSample f64 rtt).srtt ≤ (c.onRttSample f64 rtt).rto
  aboveFloor : 1000000 ≤ (c.onRttSample f64 rtt).rto

theorem RttBounded.soundSample (f64 : Floating F) {rtt : Nat} (bounded : c.RttBounded limit)
    (short : rtt ≤ limit) (room : 8 * limit < 2 ^ 63 + 49) (wide : 1007 ≤ limit) :
    c.SoundSample f64 rtt := by
  have after := bounded.onRttSample f64 short room wide
  exact ⟨bounded.fits short room, Nat.lt_of_lt_of_le (by decide) after.positive, after.aboveSrtt,
    after.aboveFloor⟩

end CongestionController

theorem tcpReno_rttBounded {F : Type} (f64 : Floating F) {limit : Nat}
    (room : 8 * limit < 2 ^ 63 + 49) (wide : 1007 ≤ limit) :
    (tcpReno f64).PreservesOn (fun rtt => rtt ≤ limit)
    (CongestionController.RttBounded limit) where
  asks now c len bounded := bounded.of_same (c.maySend_rttState now len)
  reserves _ _ _ bounded := bounded
  refunds c bytes bounded := bounded.of_same (c.refundSendBytes_rttState bytes)
  parity now c len bounded := bounded.of_same (c.trySendParity_rttState now len)
  releases _ _ bounded := bounded
  acks _ c bytes bounded := bounded.of_same (c.ackCommon_rttState bytes)
  acksWithRtt _ c bytes rtt short bounded :=
    (bounded.onRttSample f64 short room wide).of_same
      ((c.onRttSample f64 rtt).ackCommon_rttState bytes)
  losses _ c lost total bounded := bounded.of_same (c.onLoss_rttState lost total)
  samples _ _ short bounded := bounded.onRttSample f64 short room wide

/-! ## Runs -/

namespace Tunnel

/-- The pong that a turn brings is at most `limit` microseconds old. -/
def PongWithin (cfg : Config σ) (limit : Nat) (t : Tunnel σ) (turn : Env × Event) : Prop :=
  t.PongAllowed cfg (fun rtt => rtt ≤ limit * 1000) turn

theorem run_sampled {cfg : Config (Sampled σ)} {cc : CongestionControl σ}
    (recorded : cfg.congestion = cc.sampled) (t : Tunnel (Sampled σ))
    (turns : List (Env × Event)) :
    run (cfg.withController cc) (t.view Sampled.state) turns = (run cfg t turns).map
    (view Sampled.state) := by
  have back : (cfg.withController cc).withController cc.sampled = cfg := by
    rw [← recorded]
    rfl
  have projected : cc.sampled.Projects (cfg.withController cc).congestion Sampled.state :=
    cc.sampled_projects
  rw [run_view t projected turns, back]

/-- What holds under every call while the round trips are allowed holds after every run
    whose pongs tell allowed ones. -/
theorem run_good {cfg : Config σ} {allowed : Duration → Prop} {good : σ → Prop}
    {t t' : Tunnel σ} {turns : List (Env × Event)}
    (preserves : cfg.congestion.PreservesOn allowed good)
    (acked : ∀ rtt, rtt ≤ MAX_RTT_SAMPLE → allowed rtt)
    (told : Runs.Along (step cfg) (fun t turn => t.PongAllowed cfg allowed turn) t turns)
    (ran : run cfg t turns = some t') (start : good t.congestion) : good t'.congestion :=
  Runs.invariant_along (fun t => good t.congestion)
    (fun _ _ _ allowed stepped => step_good preserves acked allowed stepped) told ran start

section Reno

variable {F : Type} (f64 : Floating F) {cfg : Config (Sampled (CongestionController F))}

/-- A tunnel as it enters its loop, with nothing recorded. -/
def sampledStart (cfg : Config (Sampled (CongestionController F))) (fec : FecConfig)
    (peer : SocketAddr) (session : Session) (mtu : UInt32) (now : Instant) :
    Tunnel (Sampled (CongestionController F)) :=
  (Tunnel.fromHandshake peer session { state := (CongestionController.new f64).setMtu mtu }
    now).configureFec cfg fec

theorem sampledStart_congestion (fec : FecConfig) (peer : SocketAddr) (session : Session)
    (mtu : UInt32) (now : Instant) : (sampledStart f64 cfg fec peer session mtu now).congestion =
      { state := (CongestionController.new f64).setMtu mtu } := by
  obtain ⟨adaptive, params, same⟩ :=
    Tunnel.configureFec_eq cfg
      (Tunnel.fromHandshake peer session
        ({ state := (CongestionController.new f64).setMtu mtu } :
          Sampled (CongestionController F)) now) fec
  rw [sampledStart, same]
  rfl

theorem sampledStart_view (fec : FecConfig) (peer : SocketAddr) (session : Session) (mtu : UInt32)
    (now : Instant) :
    (sampledStart f64 cfg fec peer session mtu now).view Sampled.state =
      renoStart f64 (cfg.withController (tcpReno f64)) fec peer session mtu now := by
  simp only [sampledStart, renoStart, configureFec, apply_ite (view Sampled.state)]
  rfl

/-- The record only watches: a run with it is the run of the tunnel with `tcp-reno`. -/
def RecordWatches : Prop :=
  ∀ (F : Type) (f64 : Floating F) (cfg : Config (Sampled (CongestionController F)))
    (fec : FecConfig) (peer : SocketAddr) (session : Session) (mtu : UInt32) (now : Instant)
    (turns : List (Env × Event)), cfg.congestion = (tcpReno f64).sampled →
    run (cfg.withController (tcpReno f64))
      (renoStart f64 (cfg.withController (tcpReno f64)) fec peer session mtu now) turns =
      (run cfg (sampledStart f64 cfg fec peer session mtu now) turns).map (view Sampled.state)

theorem recordWatches : RecordWatches := by
  intro F f64 cfg fec peer session mtu now turns recorded
  rw [← sampledStart_view]
  exact run_sampled recorded _ turns

/-- Every sample of every run is sound, as long as no pong is older than the limit. -/
def SoundUpTo (limit : Nat) : Prop :=
  ∀ (F : Type) (f64 : Floating F) (cfg : Config (Sampled (CongestionController F)))
    (fec : FecConfig) (peer : SocketAddr) (session : Session) (mtu : UInt32) (now : Instant)
    (turns : List (Env × Event)) (t : Tunnel (Sampled (CongestionController F))),
    cfg.congestion = (tcpReno f64).sampled → Runs.Along (step cfg) (PongWithin cfg limit)
    (sampledStart f64 cfg fec peer session mtu now) turns → run cfg
    (sampledStart f64 cfg fec peer session mtu now) turns = some t → ∀ call ∈
    t.congestion.samples, call.1.SoundSample f64 call.2

variable {f64}

theorem soundUpTo_of_room {limit : Nat} (room : 8 * (limit * 1000) < 2 ^ 63 + 49)
    (wide : MAX_RTT_SAMPLE ≤ limit * 1000) : SoundUpTo limit := by
  intro F f64 cfg fec peer session mtu now turns t reno within ran
  have above : 1007 ≤ limit * 1000 := Nat.le_trans (by decide) wide
  have preserves := (tcpReno_rttBounded f64 room above).sampled fun c rtt bounded short =>
    CongestionController.RttBounded.soundSample f64 bounded short room above
  rw [← reno] at preserves
  refine (run_good preserves (fun rtt short => Nat.le_trans short wide) within ran ?_).2
  rw [sampledStart_congestion]
  exact ⟨CongestionController.new_rttBounded mtu (Nat.le_trans (by decide) wide), nofun⟩

theorem SoundUpTo.mono {limit limit' : Nat} (sound : SoundUpTo limit') (le : limit ≤ limit') :
    SoundUpTo limit := by
  intro F f64 cfg fec peer session mtu now turns t reno within ran
  refine sound F f64 cfg fec peer session mtu now turns t reno ?_ ran
  intro left turn right mid split reached bytes source hdr payload event opened kind long past
  have young :=
    within left turn right mid split reached bytes source hdr payload event opened kind long past
  exact Nat.le_trans young (Nat.mul_le_mul_right 1000 le)

end Reno

/-! ## The oldest pong -/

/-- A pong with the timestamp zero, as the peer of the sample tunnel seals it. -/
def zeroPong : Bytes :=
  ((Tunnel.fromHandshake (sampleAddr 1) (.new 7 .responder) () 0).sendPacket
    (sampleConfig .responderToInitiator .initiatorToResponder) (sampleEnv 0 0) .pong
      (List.replicate 12 0)).sent.flatMap Sent.wire

def sampledRenoConfig : Config (Sampled (CongestionController ℚ)) :=
  { sampleRenoConfig with congestion := (tcpReno Floating.exact).sampled }

def sampledRenoStart : Tunnel (Sampled (CongestionController ℚ)) :=
  sampledStart Floating.exact sampledRenoConfig ⟨1, 1, 1, 1⟩ (sampleAddr 1)
    (.new 7 .initiator) 1400 0

/-- Pongs with the timestamp zero, when the clock says `micros`. -/
def zeroPongs (micros : UInt64) (count : Nat) : List (Env × Event) :=
  List.replicate count (sampleEnv 0 micros, .datagram zeroPong (sampleAddr 1))

theorem zeroPongs_within (limit : Nat) (micros : UInt64) (count : Nat)
    (le : micros.toNat ≤ limit) :
    Runs.Along (step sampledRenoConfig) (PongWithin sampledRenoConfig limit) sampledRenoStart
      (zeroPongs micros count) := by
  intro left turn right mid split reached bytes source hdr payload event opened kind long past
  have member : turn ∈ zeroPongs micros count := by simp [split]
  rw [List.eq_of_mem_replicate member]
  exact Nat.mul_le_mul_right 1000 (Nat.le_trans (Nat.sub_le _ _) le)

/-- A sample was told whose weighted sum with `SRTT` leaves the word. -/
def overflowed (t : Tunnel (Sampled (CongestionController ℚ))) : Bool :=
  t.congestion.samples.any fun call => 2 ^ 63 ≤ 7 * call.1.srtt + call.2

theorem exists_unsound {turns : List (Env × Event)}
    (evaluated : (run sampledRenoConfig sampledRenoStart turns).any overflowed = true) :
    ∃ t, run sampledRenoConfig sampledRenoStart turns = some t ∧
      ¬ ∀ call ∈ t.congestion.samples, call.1.SoundSample Floating.exact call.2 := by
  obtain ⟨t, ran, some_overflow⟩ := (Option.any_eq_true _ _).mp evaluated
  obtain ⟨call, member, overflow⟩ := List.any_eq_true.mp some_overflow
  exact ⟨t, ran, fun sound => not_fits_of_sum (of_decide_eq_true overflow)
    (sound call member).fits⟩

/-- The estimator is sound in every run up to a limit on the age of the pongs exactly when
    the limit is at most 1152921504606846 microseconds, which is thirty-six years and a half.
    The runs with the record are those of the tunnel with `tcp-reno`. -/
theorem soundUpTo_iff (limit : Nat) :
    RecordWatches ∧ (SoundUpTo limit ↔ limit ≤ 1152921504606846) := by
  refine ⟨recordWatches, ?_⟩
  constructor
  · intro sound
    by_contra above
    -- a pong one microsecond above, until the average has come within seven of it
    have evaluated : (run sampledRenoConfig sampledRenoStart (zeroPongs 1152921504606847 289)).any
      overflowed =
        true := by decide +kernel
    obtain ⟨t, ran, unsound⟩ := exists_unsound evaluated
    have within := zeroPongs_within limit 1152921504606847 289 (Nat.lt_of_not_le above)
    exact unsound (sound ℚ Floating.exact sampledRenoConfig _ _ _ _ _ _ t rfl within ran)
  · intro below
    exact (soundUpTo_of_room (by decide) (by decide)).mono below

/-- Eight pongs with the timestamp zero, in the year 2026. -/
theorem epochPongs_overflow :
    ∃ t, run sampledRenoConfig sampledRenoStart (zeroPongs 1780000000000000 8) = some t ∧
    ¬ ∀ call ∈ t.congestion.samples, call.1.SoundSample Floating.exact call.2 :=
  exists_unsound (by decide +kernel)

end Tunnel

end Rustnies
