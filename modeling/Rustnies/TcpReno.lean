import Rustnies.Congestion
import Mathlib.Data.Rat.Floor

/-! # The `tcp-reno` controller

`congestion/tcp.rs`: a congestion window in bytes, a pacer and the smoothed round
trip. The window is a `u64` and its arithmetic saturates; growth, decrease and pacing
are computed in `f64`, whose operations are a parameter here. `Accounts` says what the
tunnel relies on: whatever the window does, the bytes in flight change by exactly what
was reserved, acknowledged or released.
-/

namespace Rustnies

/-- The `f64` operations of the controller. -/
structure Floating (F : Type) where
  ofNat : Nat → F
  literal : ℚ → F
  sub : F → F → F
  mul : F → F → F
  div : F → F → F
  max : F → F → F
  /-- `clamp(lo, hi)`. -/
  clamp : F → F → F → F
  /-- `as u64`, which saturates. -/
  toU64 : F → UInt64
  /-- `as_secs_f64`. -/
  secs : Duration → F
  /-- `Duration::from_secs_f64`. -/
  ofSecs : F → Duration

def U64_MAX : Nat := 2 ^ 64 - 1

/-- Exact arithmetic, with the rounding of the casts. -/
def Floating.exact : Floating ℚ where
  ofNat n := n
  literal q := q
  sub a b := a - b
  mul a b := a * b
  div a b := a / b
  max a b := Max.max a b
  clamp x lo hi := Max.max lo (min x hi)
  toU64 q := UInt64.ofNat (min q.floor.toNat U64_MAX)
  secs d := d / 1000000000
  ofSecs q := (q * 1000000000 + 1 / 2).floor.toNat

def saturatingAdd (a b : Nat) : Nat := min (a + b) U64_MAX

def MIN_CWND_BYTES : Nat := 2 * 1300
def INITIAL_CWND_BYTES : Nat := 10 * 1300
def INITIAL_SSTHRESH_BYTES : Nat := 64 * 1300
def DEFAULT_MTU : UInt32 := 1400
def MIN_PACING_RATE : ℚ := 8000
def MAX_PACING_RATE : ℚ := 625000000
def INITIAL_RTT : Duration := 100000000
def INITIAL_PACING_RATE : ℚ := 125000

structure CongestionController (F : Type) where
  cwnd : Nat
  ssthresh : Nat
  inFlight : Nat
  srtt : Duration
  rttvar : Duration
  rto : Duration
  lastLoss : F
  pacingRate : F
  nextSendAt : Option Instant
  mtu : UInt32
  /-- The window is a `u64`. -/
  fits : cwnd ≤ U64_MAX

namespace CongestionController

variable {F : Type} (f64 : Floating F)

def new : CongestionController F where
  cwnd := INITIAL_CWND_BYTES
  ssthresh := INITIAL_SSTHRESH_BYTES
  inFlight := 0
  srtt := INITIAL_RTT
  rttvar := INITIAL_RTT / 2
  rto := INITIAL_RTT * 2
  lastLoss := f64.literal 0
  pacingRate := f64.literal INITIAL_PACING_RATE
  nextSendAt := none
  mtu := DEFAULT_MTU
  fits := by decide

def setMtu (c : CongestionController F) (mtu : UInt32) : CongestionController F :=
  if 0 < mtu then { c with mtu := mtu } else c

def sendBudget (c : CongestionController F) : Nat := c.cwnd - c.inFlight

def release (c : CongestionController F) (bytes : Nat) : CongestionController F :=
  { c with inFlight := c.inFlight - bytes }

def refundSendBytes (c : CongestionController F) (bytes : Nat) : CongestionController F :=
  let c := c.release bytes
  match c.nextSendAt with
  | none => c
  | some next =>
      let delay := f64.ofSecs (f64.div (f64.ofNat (max bytes 1)) c.pacingRate)
      { c with nextSendAt := if delay ≤ next then some (next - delay) else none }

/-- A pacer more than one round trip behind starts again from now. -/
def advancePacer (c : CongestionController F) (now : Instant) (len : Nat) :
    CongestionController F :=
  let rate := f64.clamp c.pacingRate (f64.literal MIN_PACING_RATE) (f64.literal MAX_PACING_RATE)
  let interval := f64.ofSecs (f64.div (f64.ofNat len) rate)
  let base := match c.nextSendAt with
    | some t => if now < t then t else now
    | none => now
  let maxDebt := max c.srtt 1000000
  let next := base + interval
  { c with nextSendAt := some (if maxDebt < next - now then now + interval else next) }

def maySend (now : Instant) (c : CongestionController F) (len : Nat) :
    Bool × CongestionController F :=
  let need := max len 1
  if c.sendBudget < need then (false, c)
  else
    match c.nextSendAt with
    | some t => if now < t then (false, c) else (true, c.advancePacer f64 now need)
    | none => (true, c.advancePacer f64 now need)

def nextSendDeadline (now : Instant) (c : CongestionController F) : Option Instant :=
  c.nextSendAt.filter fun next => now < next

/-- The reservation is cut to the window. -/
def onSendBytes (c : CongestionController F) (len : Nat) : CongestionController F :=
  { c with inFlight := min (saturatingAdd c.inFlight (max len 1)) (max c.cwnd 1) }

/-- Parity asks for the window only; the pacer is charged for it. -/
def trySendParity (now : Instant) (c : CongestionController F) (len : Nat) :
    Bool × CongestionController F :=
  let need := max len 1
  if c.sendBudget < need then (false, c)
  else (true, (c.onSendBytes len).advancePacer f64 now need)

def recomputePacingRate (c : CongestionController F) : CongestionController F :=
  let srtt := f64.max (f64.secs c.srtt) (f64.literal (1 / 1000000))
  let rate := f64.div (f64.ofNat c.cwnd) srtt
  { c with pacingRate :=
    f64.clamp rate (f64.literal MIN_PACING_RATE) (f64.literal MAX_PACING_RATE) }

/-- Slow start adds what was acknowledged, congestion avoidance about one MTU a
    round trip. -/
def ackCommon (c : CongestionController F) (bytes : Nat) : CongestionController F :=
  let n := max bytes 1
  let added :=
    if c.cwnd < c.ssthresh then n
    else
      let mss := f64.ofNat (max c.mtu.toNat 1)
      (f64.toU64 (f64.div (f64.mul (f64.ofNat n) mss) (f64.ofNat (max c.cwnd 1)))).toNat
  let c := { c with
    inFlight := c.inFlight - n
    cwnd := saturatingAdd c.cwnd added
    fits := Nat.min_le_right _ _ }
  c.recomputePacingRate f64

/-- The nanoseconds are `i64` and wrap. -/
def onRttSample (c : CongestionController F) (rtt : Duration) : CongestionController F :=
  let r := Int64.ofNat rtt
  let s := Int64.ofNat c.srtt
  let v := Int64.ofNat c.rttvar
  let diff := (s - r).abs
  let newV := (3 * v + diff) / 4
  let newS := (7 * s + r) / 8
  let rto := max (newS + 4 * newV) (newS + 1000000)
  let c := { c with
    srtt := (max newS 1000).toUInt64.toNat
    rttvar := (max newV 1000).toUInt64.toNat
    rto := (max rto 1000000).toUInt64.toNat }
  c.recomputePacingRate f64

def onAckBytes (c : CongestionController F) (bytes : Nat) : CongestionController F :=
  c.ackCommon f64 bytes

def onAckWithRtt (c : CongestionController F) (bytes : Nat) (sample : Duration) :
    CongestionController F :=
  (c.onRttSample f64 sample).ackCommon f64 bytes

/-- Decrease the window by a factor that follows the loss; what is in flight stays. -/
def onLoss (c : CongestionController F) (lost total : Nat) : CongestionController F :=
  if total = 0 ∨ lost = 0 then c
  else
    let ratio :=
      f64.clamp (f64.div (f64.ofNat lost) (f64.ofNat total)) (f64.literal 0) (f64.literal 1)
    let factor := f64.clamp (f64.sub (f64.literal 1) (f64.mul ratio (f64.literal (1 / 2))))
      (f64.literal (1 / 2)) (f64.literal (7 / 8))
    let reduced := f64.toU64 (f64.mul (f64.ofNat c.cwnd) factor)
    let c := { c with
      lastLoss := ratio
      ssthresh := max reduced.toNat MIN_CWND_BYTES
      cwnd := max reduced.toNat MIN_CWND_BYTES
      fits := Nat.max_le.mpr ⟨Nat.le_pred_of_lt reduced.toNat_lt, by decide⟩ }
    c.recomputePacingRate f64

end CongestionController

def tcpReno {F : Type} (f64 : Floating F) : CongestionControl (CongestionController F) where
  sendBudget c := c.sendBudget
  maySend now c len := c.maySend f64 now len
  nextSendDeadline now c := c.nextSendDeadline now
  onSendBytes _ c len := c.onSendBytes len
  refundSendBytes c bytes := c.refundSendBytes f64 bytes
  trySendParity now c len := c.trySendParity f64 now len
  release c bytes := c.release bytes
  onAckBytes _ c bytes := c.onAckBytes f64 bytes
  onAckWithRtt _ c bytes rtt := c.onAckWithRtt f64 bytes rtt
  onLoss _ c lost total := c.onLoss f64 lost total
  onRttSample c rtt := c.onRttSample f64 rtt
  rto c := c.rto

/-! ## Bytes in flight -/

/-- A controller whose bytes in flight follow the calls exactly: an admitted packet is
    reserved in full, and the window's own movements leave them alone. -/
structure CongestionControl.Accounts {σ : Type} (cc : CongestionControl σ)
    (inFlight : σ → Nat) : Prop where
  waits : ∀ now s len, inFlight (cc.maySend now s len).2 = inFlight s
  reserves : ∀ now s len, 0 < len → (cc.maySend now s len).1 = true →
    inFlight (cc.onSendBytes now (cc.maySend now s len).2 len) = inFlight s + len
  parity : ∀ now s len, 0 < len → inFlight (cc.trySendParity now s len).2 =
    inFlight s + if (cc.trySendParity now s len).1 then len else 0
  refunds : ∀ s bytes, inFlight (cc.refundSendBytes s bytes) = inFlight s - bytes
  releases : ∀ s bytes, inFlight (cc.release s bytes) = inFlight s - bytes
  acks : ∀ now s bytes, 0 < bytes → inFlight (cc.onAckBytes now s bytes) = inFlight s - bytes
  acksWithRtt : ∀ now s bytes rtt, 0 < bytes → inFlight (cc.onAckWithRtt now s bytes rtt) =
    inFlight s - bytes
  losses : ∀ now s lost total, inFlight (cc.onLoss now s lost total) = inFlight s
  samples : ∀ s rtt, inFlight (cc.onRttSample s rtt) = inFlight s

namespace CongestionController

variable {F : Type} {f64 : Floating F} (c : CongestionController F)

theorem onSendBytes_inFlight {len : Nat} (positive : 0 < len) (room : len ≤ c.sendBudget) :
    (c.onSendBytes len).inFlight = c.inFlight + len := by
  have inside : c.inFlight + len ≤ c.cwnd := by
    simp only [sendBudget] at room
    omega
  have fits := c.fits
  simp only [onSendBytes, saturatingAdd]
  omega

theorem refundSendBytes_inFlight (bytes : Nat) :
    (c.refundSendBytes f64 bytes).inFlight = c.inFlight - bytes := by
  simp only [refundSendBytes]
  cases (c.release bytes).nextSendAt with
  | none => rfl
  | some next => rfl

theorem ackCommon_inFlight {bytes : Nat} (positive : 0 < bytes) :
    (c.ackCommon f64 bytes).inFlight = c.inFlight - bytes := by
  simp only [ackCommon, recomputePacingRate, Nat.max_eq_left positive]

theorem onLoss_inFlight (lost total : Nat) : (c.onLoss f64 lost total).inFlight = c.inFlight := by
  simp only [onLoss, recomputePacingRate]
  split
  · rfl
  · rfl

theorem maySend_cases (f64 : Floating F) (now : Instant) (len : Nat) :
    c.maySend f64 now len = (false, c) ∨
      (max len 1 ≤ c.sendBudget ∧
        c.maySend f64 now len = (true, c.advancePacer f64 now (max len 1))) := by
  simp only [maySend]
  split
  · exact .inl rfl
  · rename_i room
    cases c.nextSendAt with
    | none => exact .inr ⟨Nat.le_of_not_lt room, rfl⟩
    | some t =>
        simp only
        split
        · exact .inl rfl
        · exact .inr ⟨Nat.le_of_not_lt room, rfl⟩

end CongestionController

/-- `tcp-reno` accounts exactly, whatever its floating-point arithmetic does. -/
theorem tcpReno_accounts {F : Type} (f64 : Floating F) :
    (tcpReno f64).Accounts CongestionController.inFlight where
  waits now c len := by
    rcases c.maySend_cases f64 now len with same | ⟨-, admitted⟩
    · exact congrArg (fun r => r.2.inFlight) same
    · exact congrArg (fun r => r.2.inFlight) admitted
  reserves now c len positive granted := by
    simp only [tcpReno] at granted ⊢
    rcases c.maySend_cases f64 now len with same | ⟨room, admitted⟩
    · rw [same] at granted
      cases granted
    · rw [admitted]
      exact (c.advancePacer f64 now _).onSendBytes_inFlight positive
        (by rwa [Nat.max_eq_left positive] at room)
  parity now c len positive := by
    simp only [tcpReno, CongestionController.trySendParity, Nat.max_eq_left positive]
    split
    · rfl
    · rename_i room
      exact c.onSendBytes_inFlight positive (Nat.le_of_not_lt room)
  refunds c bytes := c.refundSendBytes_inFlight bytes
  releases c bytes := rfl
  acks _ c bytes positive := c.ackCommon_inFlight positive
  acksWithRtt _ c bytes rtt positive := (c.onRttSample f64 rtt).ackCommon_inFlight positive
  losses _ c lost total := c.onLoss_inFlight lost total
  samples c rtt := rfl

/-! ## Pacing -/

/-- What holds of a controller's state under every call. -/
structure CongestionControl.Preserves {σ : Type} (cc : CongestionControl σ) (good : σ → Prop) :
    Prop where
  asks : ∀ now s len, good s → good (cc.maySend now s len).2
  reserves : ∀ now s len, good s → good (cc.onSendBytes now s len)
  refunds : ∀ s bytes, good s → good (cc.refundSendBytes s bytes)
  parity : ∀ now s len, good s → good (cc.trySendParity now s len).2
  releases : ∀ s bytes, good s → good (cc.release s bytes)
  acks : ∀ now s bytes, good s → good (cc.onAckBytes now s bytes)
  acksWithRtt : ∀ now s bytes rtt, good s → good (cc.onAckWithRtt now s bytes rtt)
  losses : ∀ now s lost total, good s → good (cc.onLoss now s lost total)
  samples : ∀ s rtt, good s → good (cc.onRttSample s rtt)

/-- What holds of a controller's state under every call, as long as the round trips that
    it is told are allowed. -/
structure CongestionControl.PreservesOn {σ : Type} (cc : CongestionControl σ)
    (allowed : Duration → Prop) (good : σ → Prop) : Prop where
  asks : ∀ now s len, good s → good (cc.maySend now s len).2
  reserves : ∀ now s len, good s → good (cc.onSendBytes now s len)
  refunds : ∀ s bytes, good s → good (cc.refundSendBytes s bytes)
  parity : ∀ now s len, good s → good (cc.trySendParity now s len).2
  releases : ∀ s bytes, good s → good (cc.release s bytes)
  acks : ∀ now s bytes, good s → good (cc.onAckBytes now s bytes)
  acksWithRtt : ∀ now s bytes rtt,
    allowed rtt → good s → good (cc.onAckWithRtt now s bytes rtt)
  losses : ∀ now s lost total, good s → good (cc.onLoss now s lost total)
  samples : ∀ s rtt, allowed rtt → good s → good (cc.onRttSample s rtt)

theorem CongestionControl.Preserves.on {σ : Type} {cc : CongestionControl σ} {good : σ → Prop}
    (preserves : cc.Preserves good) (allowed : Duration → Prop) :
    cc.PreservesOn allowed good where
  asks := preserves.asks
  reserves := preserves.reserves
  refunds := preserves.refunds
  parity := preserves.parity
  releases := preserves.releases
  acks := preserves.acks
  acksWithRtt now s bytes rtt _ := preserves.acksWithRtt now s bytes rtt
  losses := preserves.losses
  samples s rtt _ := preserves.samples s rtt

/-- A controller whose pacer explains itself: a packet within the budget that is refused
    finds a deadline ahead, and the refund of an admitted one leaves none. -/
structure CongestionControl.Paces {σ : Type} (cc : CongestionControl σ) (good : σ → Prop) :
    Prop extends cc.Preserves good where
  waits : ∀ now s len, max len 1 ≤ cc.sendBudget s → (cc.maySend now s len).1 = false →
    (cc.nextSendDeadline now (cc.maySend now s len).2).isSome
  restores : ∀ now s len, good s → (cc.maySend now s len).1 = true →
    cc.nextSendDeadline now
      (cc.refundSendBytes (cc.onSendBytes now (cc.maySend now s len).2 len) len) = none

theorem CongestionControl.Paces.on_any {σ : Type} {cc : CongestionControl σ} {good : σ → Prop}
    (paces : cc.Paces good) : cc.PreservesOn (fun _ => True) good := paces.toPreserves.on _

namespace CongestionController

variable {F : Type} {f64 : Floating F} (c : CongestionController F)

end CongestionController

end Rustnies
