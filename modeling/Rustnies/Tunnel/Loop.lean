import Rustnies.Lib.Runs
import Rustnies.Tunnel.Receive

/-! # The run loop

`Tunnel::run`: one event per turn of the `select!`, each with the clocks and the
carrier's answers of its turn. A tunnel whose loop has ended ignores every event.
-/

namespace Rustnies

inductive Event where
  /-- The shutdown watch changed to the given value. -/
  | stop (requested : Bool)
  | tun (packet : Bytes)
  | tunError
  | pacerRetry
  | datagram (bytes : Bytes) (source : SocketAddr)
  | udpClosed
  | ping
  | fecTick
  | rtoTick
  | ackTick
  | keepalive
  | timeoutCheck
  | evict

namespace Tunnel

variable {σ : Type} (cfg : Config σ)

/-- Send `Close` and leave the loop. -/
def closeAndExit (env : Env) (t : Tunnel σ) (exit : TunnelExit) : Tunnel σ :=
  { t.sendControl cfg env .close [] with exit := some exit }

/-- A fresh packet supersedes a parked one. -/
def onTun (env : Env) (t : Tunnel σ) (packet : Bytes) : Tunnel σ :=
  match (t.park none none).handleTunPacket cfg env packet with
  | (true, t) => t
  | (false, t) => t.parkIfPaced cfg env packet

def handleEvent (env : Env) (t : Tunnel σ) : Event → Option (Tunnel σ)
  | .stop requested => some (if requested then t.closeAndExit cfg env .stopped else t)
  | .tun packet => some (t.onTun cfg env packet)
  | .tunError => some { t with exit := some .tunError }
  | .pacerRetry => some (if t.pendingOut.isSome then t.retryPending cfg env else t)
  | .datagram bytes source => (t.handleUdpDatagram cfg env bytes source).map fun t =>
      if t.closing then { t with exit := some .peerClosed } else t
  | .udpClosed => some { t with exit := some .udpClosed }
  | .ping => some (t.sendPing cfg env)
  | .fecTick => some ((t.flushFecGroupIfStale cfg env).evictExpiredRxGroups env)
  | .rtoTick => some (t.checkRetransmits cfg env)
  | .ackTick => some (t.flushCoalescedAck cfg env)
  | .keepalive => some (t.sendKeepalive cfg env)
  | .timeoutCheck =>
      some (if cfg.sessionTimeout ≤ env.now - t.lastPeerActivity
        then t.closeAndExit cfg env .sessionTimeout else t)
  | .evict => some (t.closeAndExit cfg env .peerClosed)

/-- One turn of the loop; `none` is a panic. -/
def step (t : Tunnel σ) (turn : Env × Event) : Option (Tunnel σ) :=
  if t.exit.isSome then some t else t.handleEvent cfg turn.1 turn.2

/-- Feed the events to the loop. -/
abbrev run (t : Tunnel σ) (turns : List (Env × Event)) : Option (Tunnel σ) :=
  Runs.run (step cfg) t turns

end Tunnel

end Rustnies
