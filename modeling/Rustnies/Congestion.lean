import Mathlib.Algebra.Group.Nat.Defs

/-! # Congestion control as the tunnel sees it

`congestion/mod.rs`: the admission tests and the feedback calls of a controller,
over its own state. Instants and durations are nanoseconds. `tcp-reno` is one
controller; `noCongestionControl` is the one that never refuses.
-/

namespace Rustnies

abbrev Instant := Nat
abbrev Duration := Nat

/-- The methods of the `CongestionControl` trait that the tunnel calls. -/
structure CongestionControl (σ : Type) where
  sendBudget : σ → Nat
  maySend : Instant → σ → Nat → Bool × σ
  nextSendDeadline : Instant → σ → Option Instant
  onSendBytes : Instant → σ → Nat → σ
  refundSendBytes : σ → Nat → σ
  trySendParity : Instant → σ → Nat → Bool × σ
  release : σ → Nat → σ
  onAckBytes : Instant → σ → Nat → σ
  onAckWithRtt : Instant → σ → Nat → Duration → σ
  onLoss : Instant → σ → Nat → Nat → σ
  onRttSample : σ → Duration → σ
  /-- `snapshot().rto`. -/
  rto : σ → Duration

def NO_CC_RTO : Duration := 1000000000

/-- An unbounded window and no pacer. -/
def noCongestionControl : CongestionControl Unit where
  sendBudget _ := 2 ^ 64 - 1
  maySend _ s _ := (true, s)
  nextSendDeadline _ _ := none
  onSendBytes _ s _ := s
  refundSendBytes s _ := s
  trySendParity _ s _ := (true, s)
  release s _ := s
  onAckBytes _ s _ := s
  onAckWithRtt _ s _ _ := s
  onLoss _ s _ _ := s
  onRttSample s _ := s
  rto _ := NO_CC_RTO

end Rustnies
