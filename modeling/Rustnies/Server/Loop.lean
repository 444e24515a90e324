import Rustnies.Server.Dispatch

/-! # The server as a transition system

`run_server` and the tasks it spawned. One event is one branch of the dispatcher's
`select!`, one turn of a tunnel task, the end of a task, bytes on a connection, or
a change of the authorized peers from outside. A branch that awaits keeps the
dispatcher busy until it is resumed; a branch that is not ready is no step.
-/

namespace Rustnies

variable {σ : Type}

inductive DispatcherBranch where
  | stop (requested : Bool)
  | tun (packet : Bytes)
  | tunError
  | tunWrite
  | addrChange
  | control (command : Server.ControlCommand)
  | datagram (data : Bytes) (source : SocketAddr)
  | connection (source : SocketAddr)
  | acceptError
  | sweep
  /-- The dispatcher goes on with what it awaits; the number bounds one read. -/
  | resume (n : Nat)
  deriving Repr, DecidableEq

/-- `PeerAuth` is shared with the operator's commands and the reload of the
    configuration. -/
inductive AuthChange where
  | revoke (key : Bytes)
  | unrevoke (key : Bytes)
  | setPeers (peers : List PeerEntry)
  | setOpen
  deriving Repr, DecidableEq

def AuthChange.apply (auth : PeerAuth) : AuthChange → PeerAuth
  | .revoke key => auth.revoke key
  | .unrevoke key => auth.unrevoke key
  | .setPeers peers => auth.setPeers peers
  | .setOpen => auth.setOpen

inductive ServerEvent where
  | dispatcher (env : ServerEnv) (branch : DispatcherBranch)
  | task (index : Nat) (env : Env) (branch : Branch)
  /-- A task whose loop has ended is dropped. -/
  | taskEnds (index : Nat)
  | bytes (connection : Nat) (chunk : Bytes)
  | eof (connection : Nat)
  | auth (change : AuthChange)

namespace Server

/-- A server that has just started. -/
def init (now : Instant) (peerAuth : PeerAuth) : Server σ where
  probeLimiter := .new now
  peerAuth := peerAuth

/-- Go on with what the dispatcher awaits. -/
def resume (ctx : ServerCtx σ) (env : ServerEnv) (s : Server σ) (n : Nat) : Option (Server σ) :=
  match s.awaiting with
  | .nothing => none
  | .backpressure i packet =>
      match s.tasks[i]? with
      | none => none
      | some t =>
          if t.closed then some { s with awaiting := .nothing }
          else if t.tunRx.length < PER_CLIENT_CHAN then
            some { s.pushTun i packet with awaiting := .nothing }
          else none
  | .message1 i =>
      match s.connections[i]? with
      | none => none
      | some c =>
          let (turn, c) := c.readTurn n
          let s := { s with connections := s.connections.set i c }
          match turn with
          | .message msg1 =>
              some ({ s with awaiting := .nothing }.handleHandshake ctx env msg1 c.peer
                (.connection i)).2
          | .more => some s
          | .closed => some { s with awaiting := .nothing }
          | .wait => none

def stepDispatcher (ctx : ServerCtx σ) (env : ServerEnv) (s : Server σ) :
    DispatcherBranch → Option (Server σ)
  | .stop requested => some (if requested then s.shutdown else s)
  | .tun packet => some (s.routeTunPacket env packet)
  | .tunError => some s.shutdown
  | .tunWrite =>
      match s.tunWriteRx with
      | [] => none
      | post :: rest =>
          let s := { s with tunWriteRx := rest }.learnTunIp ctx post.sessionId post.packet
          some { s with tunOut := s.tunOut ++ [post] }
  | .addrChange =>
      match s.addrChangeRx with
      | [] => none
      | (sid, newAddr) :: rest => some ({ s with addrChangeRx := rest }.applyRoam env sid newAddr)
  | .control command => some (s.handleControlCommand command)
  | .datagram data source =>
      if ctx.carrier = .udp then some (s.dispatchDatagram ctx env data source) else none
  | .connection source =>
      if ctx.carrier = .tcp then some { s with
        connections := s.connections ++ [{ peer := source }]
        awaiting := .message1 s.connections.length }
      else none
  | .acceptError => some s
  | .sweep => some s.sweep
  | .resume _ => none

/-- A turn of a task; what it posts goes into the dispatcher's channels while there is
    a dispatcher. -/
def stepTask (s : Server σ) (i : Nat) (env : Env) (branch : Branch) : Option (Server σ) :=
  match s.tasks[i]? with
  | none => none
  | some t => (t.turn env branch).map fun t' =>
      let posts := (t'.tunnel.tunWrites.drop t.tunnel.tunWrites.length).map fun w =>
        (⟨i, t.sessionId, w.bytes⟩ : Post)
      let roams := t'.tunnel.roamSignals.drop t.tunnel.roamSignals.length
      let s := { s with tasks := s.tasks.set i t' }
      if s.stopped then s
      else { s with tunWriteRx := s.tunWriteRx ++ posts, addrChangeRx := s.addrChangeRx ++ roams }

def endTask (s : Server σ) (i : Nat) : Option (Server σ) :=
  match s.tasks[i]? with
  | none => none
  | some t => if t.running then none else some (s.updateTask i fun t => { t with closed := true })

def step (ctx : ServerCtx σ) (s : Server σ) : ServerEvent → Option (Server σ)
  | .dispatcher env branch =>
      if s.stopped then none
      else
        match s.awaiting, branch with
        | .nothing, branch => s.stepDispatcher ctx env branch
        | _, .resume n => s.resume ctx env n
        | _, _ => none
  | .task i env branch => s.stepTask i env branch
  | .taskEnds i => s.endTask i
  | .bytes i chunk =>
      if i < s.connections.length then
        some { s with connections := s.connections.modify i fun c =>
            { c with unread := c.unread ++ chunk } }
      else none
  | .eof i => some { s with connections := s.connections.modify i fun c => { c with eof := true } }
  | .auth change => some { s with peerAuth := change.apply s.peerAuth }

/-- A server reached from its start. -/
def Reachable (ctx : ServerCtx σ) (s : Server σ) : Prop :=
  ∃ now peerAuth events, Runs.run (step ctx) (init now peerAuth) events = some s

end Server

/-! ## A small server -/

/-- The table is iterated as it is stored. -/
def IterOrder.stored : IterOrder := ⟨id, fun _ => .refl _⟩

/-- The carrier takes every reply; the fresh ephemeral repeats one byte. -/
def ServerEnv.small (now : Instant) (ephemeral : UInt8) : ServerEnv where
  now := now
  order := .stored
  sendOk _ _ := true
  ephemeral := List.replicate 32 ephemeral

/-- A server with the default profile over primitives that hide nothing. -/
def ServerCtx.small (carrier : Carrier) (maxSessionsPerPeer : UInt8) : ServerCtx Unit where
  prim := .transparent
  aead := NoisePrimitives.transparent.aead
  serverKp := ⟨List.replicate 32 7, List.replicate 32 7⟩
  profile := {
    kexName := DEFAULT_HANDSHAKE
    prefs := ⟨[DEFAULT_CIPHER], [TRANSPORT_SAME_AS_HANDSHAKE], [DEFAULT_FEC_SCHEME],
      [DEFAULT_FRAME_CODEC]⟩
    handshakeTransport := .plain
    dataTag := DEFAULT_TAG
    propose := false }
  obfStack := []
  carrier := carrier
  congestion := noCongestionControl
  newCongestion := ()
  fecConfig := ⟨8, 0, 4, 2⟩
  maxSessionsPerPeer := maxSessionsPerPeer
  tunNets := []

/-- Message 1 of a client with the given key, without an offer. -/
def smallMessage1 (key ephemeral : UInt8) : Bytes :=
  List.replicate 32 ephemeral ++ List.replicate 32 key ++ List.replicate 16 0

/-- A tunnel's turn on the small server. -/
def Env.small (now : Instant) : Env where
  now := now
  wallMicros := 0
  sendOk _ _ := true
  tunSendOk _ := true

/-- A packet of a client's session, as the client sends it. -/
def smallFrame (ptype : PacketType) (sid : SessionId) (seq : UInt32) (payload : Bytes) : Bytes :=
  FrameCodec.v1Fixed.encodeFrame (.new ptype sid seq) (payload ++ List.replicate TAG_LEN 0)

/-- An IPv4 packet of 10.0.0.src to 10.0.0.dst. -/
def smallPacket (src dst : UInt8) : Bytes :=
  [0x45, 0, 0, 20, 0, 0, 0, 0, 64, 17, 0, 0, 10, 0, 0, src, 10, 0, 0, dst]

end Rustnies
