import Rustnies.Protocol.Handshake
import Rustnies.Server.Peers
import Rustnies.Tunnel.Loop
import Mathlib.Data.Finset.Insert

/-! # The state of the server

`tunnel/server.rs`: the dispatcher's tables and the tunnel tasks it spawned. A
session is an entry of the table; its task runs a tunnel at the other end of the
channels that the entry holds. An entry is the only holder of the sending ends, so
a task whose entry is gone finds its channels closed.

The last fields of `Task` and `Server` are a record of what has happened: what was
put into a task's channels, what the TUN device was given, which messages were
tried as a message 1, which handshakes were accepted, and whose sessions the
per-peer cap evicted.
-/

namespace Rustnies

def PER_CLIENT_CHAN : Nat := 512
def HANDSHAKE_PROBE_BURST : Nat := 4
def HANDSHAKE_PROBE_INTERVAL_MS : Nat := 200
def HANDSHAKE_PROBE_GLOBAL_CAP : Nat := 64
def HANDSHAKE_TOKEN_TTL_MS : Nat := 5000

abbrev Ipv4Addr := BitVec 32

/-- An `IpNet`: an address and a prefix length. -/
inductive IpNet where
  | v4 (addr : BitVec 32) (prefixLen : Nat)
  | v6 (addr : BitVec 128) (prefixLen : Nat)
  deriving Repr, DecidableEq

/-- Whether the two addresses share their first bits. -/
def IpNet.containsV4 : IpNet → Ipv4Addr → Bool
  | .v4 addr prefixLen, ip => addr >>> (32 - prefixLen) == ip >>> (32 - prefixLen)
  | .v6 _ _, _ => false

/-! ## The probe limiter -/

/-- Milliseconds from one instant to a later one. -/
def elapsedMs (since now : Instant) : Nat := (now - since) / 1000000

structure ProbeBucket where
  lastRefill : Instant
  tokens : Nat
  deriving Repr, DecidableEq

namespace ProbeBucket

def new (now : Instant) : ProbeBucket := ⟨now, HANDSHAKE_PROBE_BURST⟩

/-- The time since the last call is spent even when it earns no token. -/
def take (b : ProbeBucket) (now : Instant) : Bool × ProbeBucket :=
  let gained := elapsedMs b.lastRefill now / HANDSHAKE_PROBE_INTERVAL_MS
  let tokens := if 0 < gained then min ((b.tokens + gained % 2 ^ 32) % 2 ^ 32) HANDSHAKE_PROBE_BURST
    else b.tokens
  if 0 < tokens then (true, ⟨now, tokens - 1⟩) else (false, ⟨now, tokens⟩)

end ProbeBucket

structure ProbeLimiter where
  bySource : Table SocketAddr ProbeBucket
  lastPurge : Instant

namespace ProbeLimiter

def new (now : Instant) : ProbeLimiter := ⟨∅, now⟩

def purge (p : ProbeLimiter) (now : Instant) : ProbeLimiter :=
  if HANDSHAKE_TOKEN_TTL_MS ≤ elapsedMs p.lastPurge now then
    ⟨p.bySource.retain fun _ b => elapsedMs b.lastRefill now < HANDSHAKE_TOKEN_TTL_MS, now⟩
  else p

def allow (p : ProbeLimiter) (now : Instant) (src : SocketAddr) : Bool × ProbeLimiter :=
  let p := p.purge now
  match p.bySource.lookup src with
  | some b =>
      let (allowed, b) := b.take now
      (allowed, { p with bySource := p.bySource.insert src b })
  | none =>
      if HANDSHAKE_PROBE_GLOBAL_CAP ≤ p.bySource.keys.length then (false, p)
      else
        let (allowed, b) := (ProbeBucket.new now).take now
        (allowed, { p with bySource := p.bySource.insert src b })

end ProbeLimiter

/-! ## Tasks -/

/-- What a session sends and receives on. -/
inductive SessionCarrier where
  /-- The socket of a datagram server. -/
  | shared
  /-- An accepted connection. -/
  | connection (index : Nat)
  deriving Repr, DecidableEq

/-- A tunnel task with the receiving ends of its channels. -/
structure Task (σ : Type) where
  cfg : Config σ
  tunnel : Tunnel σ
  sessionId : SessionId
  carrier : SessionCarrier
  udpRx : List (Bytes × SocketAddr) := []
  tunRx : List Bytes := []
  evictRx : Nat := 0
  /-- The dispatcher has the sending ends. -/
  held : Bool := true
  panicked : Bool := false
  /-- The task has been dropped, and the receiving ends with it. -/
  closed : Bool := false
  handed : List (Bytes × SocketAddr) := []
  routed : List Bytes := []

/-- The branches of the tunnel's `select!`. -/
inductive Branch where
  | stop (requested : Bool)
  | tun
  | pacerRetry
  | udp
  | ping
  | fecTick
  | rtoTick
  | ackTick
  | keepalive
  | timeoutCheck
  | evict
  deriving Repr, DecidableEq

namespace Task

variable {σ : Type}

/-- The loop has not ended. -/
def running (t : Task σ) : Bool := t.tunnel.exit.isNone && !t.panicked

/-- What a branch yields and what it takes from its channel; `none` is a branch that
    is not ready. -/
def poll (t : Task σ) : Branch → Option (Event × Task σ)
  | .stop requested => some (.stop requested, t)
  | .tun =>
      match t.tunRx with
      | packet :: rest => some (.tun packet, { t with tunRx := rest })
      | [] => if t.held then none else some (.tunError, t)
  | .pacerRetry => if t.tunnel.pendingOut.isSome then some (.pacerRetry, t) else none
  | .udp =>
      match t.udpRx with
      | (bytes, source) :: rest => some (.datagram bytes source, { t with udpRx := rest })
      | [] => if t.held then none else some (.udpClosed, t)
  | .ping => some (.ping, t)
  | .fecTick => some (.fecTick, t)
  | .rtoTick => some (.rtoTick, t)
  | .ackTick => some (.ackTick, t)
  | .keepalive => some (.keepalive, t)
  | .timeoutCheck => some (.timeoutCheck, t)
  | .evict => if 0 < t.evictRx then some (.evict, { t with evictRx := t.evictRx - 1 }) else none

/-- One turn of the tunnel's loop. -/
def turn (t : Task σ) (env : Env) (branch : Branch) : Option (Task σ) :=
  if t.running then
    (t.poll branch).map fun (event, t) =>
      match t.tunnel.step t.cfg (env, event) with
      | some tunnel => { t with tunnel := tunnel }
      | none => { t with panicked := true }
  else none

end Task

/-! ## The dispatcher -/

/-- The dispatcher's side of a session. -/
structure ClientHandle where
  /-- The task at the other end of the channels. -/
  task : Nat
  currentAddr : SocketAddr
  peerKey : Bytes
  peerLabel : Option String
  lastForwarded : Instant
  roamCount : UInt32 := 0
  lastRoam : Option Instant := none
  spawnedAt : Instant
  tunIps : Finset Ipv4Addr := ∅
  warnedImplausible : Finset Ipv4Addr := ∅
  pubRouteKeystream : Option Bytes
  deriving DecidableEq

/-- What the dispatcher awaits inside a branch. -/
inductive Awaiting where
  | nothing
  /-- A free place in a task's TUN channel. -/
  | backpressure (task : Nat) (packet : Bytes)
  /-- Message 1 on an accepted connection. -/
  | message1 (connection : Nat)
  deriving Repr, DecidableEq

/-- A decrypted packet on its way to the TUN device, with the task that posted it. -/
structure Post where
  task : Nat
  sessionId : SessionId
  packet : Bytes
  deriving Repr, DecidableEq

/-- A handshake that the server accepted: the message it read, the key, and the task. -/
structure Accepted where
  msg1 : Bytes
  peerKey : Bytes
  task : Nat
  deriving Repr, DecidableEq

/-- What the configuration fixes. -/
structure ServerCtx (σ : Type) where
  prim : NoisePrimitives UInt8
  /-- The packet cipher. -/
  aead : Aead UInt8
  serverKp : KeyPair UInt8
  profile : LocalProfile
  obfStack : ObfuscationStack UInt8
  carrier : Carrier
  congestion : CongestionControl σ
  newCongestion : σ
  fecConfig : FecConfig
  maxSessionsPerPeer : UInt8
  tunNets : List IpNet

/-- The iteration order of the session table. -/
structure IterOrder where
  arrange : List (Sigma fun _ : SessionId => ClientHandle) → List
    (Sigma fun _ : SessionId => ClientHandle)
  perm : ∀ entries, (arrange entries).Perm entries

/-- What one step of the dispatcher reads from outside. -/
structure ServerEnv where
  now : Instant
  order : IterOrder
  /-- Whether the carrier accepts the reply to a handshake. -/
  sendOk : Bytes → SocketAddr → Bool
  /-- The secret of a fresh ephemeral. -/
  ephemeral : Bytes

structure Server (σ : Type) where
  sessions : Table SessionId ClientHandle := ∅
  addrIndex : Table SocketAddr SessionId := ∅
  probeLimiter : ProbeLimiter
  peerAuth : PeerAuth
  tasks : List (Task σ) := []
  connections : List Connection := []
  tunWriteRx : List Post := []
  addrChangeRx : List (SessionId × SocketAddr) := []
  awaiting : Awaiting := .nothing
  stopped : Bool := false
  tunOut : List Post := []
  probes : List Bytes := []
  accepted : List Accepted := []
  capEvicted : List Bytes := []

namespace Server

variable {σ : Type}

/-- Change the task of the given index. -/
def updateTask (s : Server σ) (i : Nat) (f : Task σ → Task σ) : Server σ :=
  { s with tasks := s.tasks.modify i f }

/-- `tun_tx.is_closed()` and `udp_tx.is_closed()`. -/
def taskClosed (s : Server σ) (i : Nat) : Bool := (s.tasks[i]?.map Task.closed).getD true

/-- A session of the table whose channels are open. -/
def Live (s : Server σ) (sid : SessionId) (h : ClientHandle) : Prop :=
  s.sessions.lookup sid = some h ∧ s.taskClosed h.task = false

end Server

end Rustnies
