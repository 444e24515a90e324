import Rustnies.Server.State
import Mathlib.Data.List.MinMax

/-! # The dispatcher's operations

`tunnel/server.rs`: routing a datagram, answering a message 1, spawning and evicting
sessions, learning tunnel addresses and routing return traffic, roaming, operator
commands and the sweep. Iteration over the session table is in an order that the
environment chooses.
-/

namespace Rustnies

variable {σ : Type}

/-! ## Reading headers -/

/-- The text of an ASCII constant. -/
def asciiBytes (s : String) : Bytes := s.toList.map fun c => UInt8.ofNat c.toNat

/-- `Ipv4Addr::new(pkt[i], .., pkt[i + 3])`. -/
def ipv4At (pkt : Bytes) (i : Nat) : Ipv4Addr :=
  BitVec.ofNat 32 ((((byteAt pkt i).toNat * 256 + (byteAt pkt (i + 1)).toNat) * 256 +
    (byteAt pkt (i + 2)).toNat) * 256 + (byteAt pkt (i + 3)).toNat)

def isIpv4 (pkt : Bytes) : Bool := 20 ≤ pkt.length && byteAt pkt 0 >>> 4 == 4

def ipv4Dst (pkt : Bytes) : Option Ipv4Addr := if isIpv4 pkt then some (ipv4At pkt 16) else none

def ipv4Src (pkt : Bytes) : Option Ipv4Addr := if isIpv4 pkt then some (ipv4At pkt 12) else none

/-- An empty list of networks accepts every address. -/
def shouldLearnTunIp (src : Ipv4Addr) (nets : List IpNet) : Bool :=
  nets.isEmpty || nets.any (·.containsV4 src)

/-- The id zero is reserved. -/
def peekSessionId (frame : Bytes) : Option SessionId := (peekAnySessionId frame).filter (· ≠ 0)

def extractHeaderXorKeystream (ctx : ServerCtx σ) (handshakeHash : Bytes) (headerLen : Nat) :
    Option Bytes :=
  if ctx.obfStack.active && ctx.obfStack.any (·.name == "header_xor") then
    some (ctx.prim.hkdf [] handshakeHash (asciiBytes HKDF_INFO) headerLen)
  else none

/-- The keystream of the whitening layer for a session. -/
def ServerCtx.deriveKeystream (ctx : ServerCtx σ) (seed : Bytes) : Keystream UInt8 :=
  ⟨ctx.prim.hkdf [] seed (asciiBytes HKDF_INFO) HEADER_LEN, ctx.prim.hkdf_length ..⟩

namespace Server

/-! ## The table and the channels -/

/-- The handle is dropped, and the sending ends with it. -/
def releaseTask (s : Server σ) (i : Nat) : Server σ :=
  s.updateTask i fun t => { t with held := false }

/-- `evict_tx.send(())`; the signal to a task that has ended is lost. -/
def signalEvict (s : Server σ) (i : Nat) : Server σ :=
  s.updateTask i fun t => if t.closed then t else { t with evictRx := t.evictRx + 1 }

/-- `sessions.remove(&sid)`. -/
def removeSession (s : Server σ) (sid : SessionId) : Server σ :=
  match s.sessions.lookup sid with
  | none => s
  | some h => { s.releaseTask h.task with sessions := s.sessions.erase sid }

/-- `sessions.insert(sid, h)`: a handle under the same id is dropped. -/
def insertSession (s : Server σ) (sid : SessionId) (h : ClientHandle) : Server σ :=
  { s.removeSession sid with sessions := s.sessions.insert sid h }

/-- A change through `sessions.get_mut(&sid)`. -/
def setHandle (s : Server σ) (sid : SessionId) (h : ClientHandle) : Server σ :=
  { s with sessions := s.sessions.insert sid h }

/-- `udp_tx.try_send`, and the time of the last datagram; `none` is a full or closed
    channel, or no such session. -/
def forward (s : Server σ) (now : Instant) (datagram : Bytes) (source : SocketAddr)
    (sid : SessionId) :
    Option (Server σ) :=
  match s.sessions.lookup sid with
  | none => none
  | some h =>
      match s.tasks[h.task]? with
      | none => none
      | some t =>
          if t.closed || PER_CLIENT_CHAN ≤ t.udpRx.length then none
          else
            let s := s.setHandle sid { h with lastForwarded := now }
            some (s.updateTask h.task fun t => { t with
              udpRx := t.udpRx ++ [(datagram, source)]
              handed := t.handed ++ [(datagram, source)] })

/-- Put a packet into a task's TUN channel. -/
def pushTun (s : Server σ) (i : Nat) (packet : Bytes) : Server σ :=
  s.updateTask i fun t => { t with tunRx := t.tunRx ++ [packet], routed := t.routed ++ [packet] }

/-! ## Spawning and evicting -/

/-- The session with the oldest traffic among those of a key, in iteration order. -/
def oldestOf (entries : List (Sigma fun _ : SessionId => ClientHandle)) (peerKey : Bytes) :
    Option SessionId :=
  ((entries.filter fun e => e.2.peerKey == peerKey).argmin fun e => e.2.lastForwarded).map (·.1)

/-- The session that the per-peer cap evicts for a new one of the key. -/
def capVictim (order : IterOrder) (s : Server σ) (peerKey : Bytes) (max : UInt8) :
    Option SessionId :=
  if max = 0 then none
  else if (s.sessions.entries.countP fun e => e.2.peerKey == peerKey) < max.toNat then none
  else oldestOf (order.arrange s.sessions.entries) peerKey

/-- Signal the victim, then drop its handle. -/
def evictOldestPeerSession (order : IterOrder) (s : Server σ) (peerKey : Bytes) (max : UInt8) :
    Server σ :=
  match s.capVictim order peerKey max with
  | none => s
  | some sid =>
      let s := match s.sessions.lookup sid with
        | some h => s.signalEvict h.task
        | none => s
      { s.removeSession sid with capEvicted := s.capEvicted ++ [peerKey] }

/-- The task of a session, before it is registered. -/
def newTask (ctx : ServerCtx σ) (env : ServerEnv) (carrier : SessionCarrier)
    (resolved : ResolvedProfile) (established : SessionEstablished UInt8) : Task σ :=
  let cfg : Config σ := {
    aead := ctx.aead
    sendKey := established.sendKey
    recvKey := established.recvKey
    sendDir := established.sendDir
    recvDir := established.recvDir
    codec := resolved.codec
    transport := resolved.transport
    obfuscation := ctx.obfStack.init ctx.deriveKeystream established.handshakeHash
    fec := resolved.fec
    congestion := ctx.congestion
    supportsRoaming := ctx.carrier.supportsRoaming
    signalsRoaming := true
    sessionTimeout := SESSION_TIMEOUT }
  let session := Session.new established.sessionId .responder
  { cfg := cfg
    tunnel := (Tunnel.fromHandshake established.peer session ctx.newCongestion env.now).configureFec
      cfg ctx.fecConfig
    sessionId := established.sessionId
    carrier := carrier }

def spawnClient (ctx : ServerCtx σ) (env : ServerEnv) (s : Server σ) (carrier : SessionCarrier)
    (resolved : ResolvedProfile) (established : SessionEstablished UInt8)
    (pubRouteKeystream : Option Bytes) : Server σ :=
  let h : ClientHandle := {
    task := s.tasks.length
    currentAddr := established.peer
    peerKey := established.peerStatic
    peerLabel := established.peerLabel
    lastForwarded := env.now
    spawnedAt := env.now
    pubRouteKeystream := pubRouteKeystream }
  let s := { s with tasks := s.tasks ++ [newTask ctx env carrier resolved established] }
  let s := s.insertSession established.sessionId h
  { s with addrIndex := s.addrIndex.insert established.peer established.sessionId }

/-- What `handle_handshake` does once message 2 is sent. -/
def acceptHandshake (ctx : ServerCtx σ) (env : ServerEnv) (s : Server σ) (msg1 : Bytes)
    (carrier : SessionCarrier) (established : SessionEstablished UInt8) : Bool × Server σ :=
  let s := s.evictOldestPeerSession env.order established.peerStatic ctx.maxSessionsPerPeer
  match ResolvedProfile.withHandshakeTransport established.selection
    ctx.profile.handshakeTransport with
  | .error _ => (false, s)
  | .ok resolved =>
      let keystream :=
        extractHeaderXorKeystream ctx established.handshakeHash resolved.codec.maxHeaderLen
      let accepted := ⟨msg1, established.peerStatic, s.tasks.length⟩
      let s := s.spawnClient ctx env carrier resolved established keystream
      (true, { s with accepted := s.accepted ++ [accepted] })

/-- The answer to a message 1; open mode passes no authorizer. -/
def respond (ctx : ServerCtx σ) (env : ServerEnv) (s : Server σ) (msg1 : Bytes)
    (source : SocketAddr) :
    Option (SessionEstablished UInt8 × Bytes) :=
  let authorizer := if s.peerAuth.isOpenMode then none else some s.peerAuth.check
  respondMessage1 ctx.prim ctx.serverKp ctx.profile ctx.obfStack msg1 source authorizer
    env.ephemeral

def handleHandshake (ctx : ServerCtx σ) (env : ServerEnv) (s : Server σ) (msg1 : Bytes)
    (source : SocketAddr) (carrier : SessionCarrier) : Bool × Server σ :=
  match s.respond ctx env msg1 source with
  | none => (false, { s with probes := s.probes ++ [msg1] })
  | some (established, wire) =>
      let s := { s with probes := s.probes ++ [msg1] }
      if env.sendOk wire source then s.acceptHandshake ctx env msg1 carrier established
        else (false, s)

/-! ## Datagrams -/

def addrFallback (s : Server σ) (source : SocketAddr) : Option SessionId :=
  (s.addrIndex.lookup source).filter fun sid => (s.sessions.lookup sid).isSome

/-- A peek that names a session of the table. -/
def peekLive (s : Server σ) (frame : Bytes) : Option SessionId :=
  (peekSessionId frame).filter fun sid => (s.sessions.lookup sid).isSome

/-- XOR a routing keystream over the front of a frame. -/
def dewhiten (frame keystream : Bytes) : Bytes :=
  List.zipWith (· ^^^ ·) frame keystream ++ frame.drop keystream.length

def peekRoutedSession (order : IterOrder) (s : Server σ) (transport : Transport)
    (datagram : Bytes) :
    Option SessionId :=
  match s.peekLive datagram with
  | some sid => some sid
  | none =>
      match transport.unwrap datagram with
      | .error _ => none
      | .ok unwrapped =>
          match s.peekLive unwrapped with
          | some sid => some sid
          | none => (order.arrange s.sessions.entries).findSome? fun e =>
              e.2.pubRouteKeystream.bind fun keystream => s.peekLive (dewhiten unwrapped keystream)

/-- Peek, then probe for a handshake under the limiter, then the address cache. -/
def dispatchDatagram (ctx : ServerCtx σ) (env : ServerEnv) (s : Server σ) (datagram : Bytes)
    (source : SocketAddr) : Server σ :=
  let routed := s.peekRoutedSession env.order ctx.profile.handshakeTransport datagram
  match routed.bind (s.forward env.now datagram source) with
  | some s => s
  | none =>
      let (allowed, limiter) := s.probeLimiter.allow env.now source
      let s := { s with probeLimiter := limiter }
      -- only a datagram server has a sender
      if !allowed || ctx.carrier ≠ .udp then s
      else
        match s.handleHandshake ctx env datagram source .shared with
        | (true, s) => s
        | (false, s) => ((s.addrFallback source).bind (s.forward env.now datagram source)).getD s

/-! ## The TUN device -/

/-- A packet read from the TUN device goes to the first open session that holds its
    destination; a full channel makes the dispatcher wait. -/
def routeTunPacket (env : ServerEnv) (s : Server σ) (packet : Bytes) : Server σ :=
  match ipv4Dst packet with
  | none => s
  | some dst =>
      let holds (e : Sigma fun _ : SessionId => ClientHandle) : Bool :=
        dst ∈ e.2.tunIps && !s.taskClosed e.2.task
      match (env.order.arrange s.sessions.entries).find? holds with
      | none => s
      | some e =>
          if ((s.tasks[e.2.task]?.map fun t => t.tunRx.length).getD 0) < PER_CLIENT_CHAN then
            s.pushTun e.2.task packet
          else { s with awaiting := .backpressure e.2.task packet }

/-- Learn the source of a packet that a client sent. -/
def learnTunIp (ctx : ServerCtx σ) (s : Server σ) (sessionId : SessionId) (packet : Bytes) :
    Server σ :=
  match ipv4Src packet, s.sessions.lookup sessionId with
  | some src, some h =>
      if shouldLearnTunIp src ctx.tunNets then
        s.setHandle sessionId { h with tunIps := insert src h.tunIps }
      else s.setHandle sessionId { h with warnedImplausible := insert src h.warnedImplausible }
  | _, _ => s

/-! ## Roaming, commands and the sweep -/

/-- A confirmed roam; the old address is forgotten only if it points at this session. -/
def applyRoam (env : ServerEnv) (s : Server σ) (sessionId : SessionId) (newAddr : SocketAddr) :
    Server σ :=
  match s.sessions.lookup sessionId with
  | none => s
  | some h =>
      if h.currentAddr = newAddr then s
      else
        let addrIndex := if s.addrIndex.lookup h.currentAddr = some sessionId
          then s.addrIndex.erase h.currentAddr else s.addrIndex
        let s := s.setHandle sessionId { h with
          currentAddr := newAddr
          roamCount := Tunnel.saturatingSucc h.roamCount
          lastRoam := some env.now }
        { s with addrIndex := addrIndex.insert newAddr sessionId }

inductive ControlCommand where
  | revoke (peerKey : Bytes)
  | listSessions
  | disconnect (sessionId : Option SessionId) (peerKey : Option Bytes)
  deriving Repr, DecidableEq

/-- Ask every session of a list to close; the sweep takes them out of the table. -/
def signalAll (s : Server σ) (victims : List (Sigma fun _ : SessionId => ClientHandle)) :
    Server σ :=
  victims.foldl (fun s e => s.signalEvict e.2.task) s

def evictSessionsForKey (s : Server σ) (peerKey : Bytes) : Server σ :=
  s.signalAll (s.sessions.entries.filter fun e => e.2.peerKey == peerKey)

def evictSessions (s : Server σ) (sessionId : Option SessionId) (peerKey : Option Bytes) :
    Server σ :=
  match sessionId, peerKey with
  | some sid, _ => s.signalAll (s.sessions.entries.filter fun e => e.1 == sid)
  | none, some key => s.evictSessionsForKey key
  | none, none => s

def handleControlCommand (s : Server σ) : ControlCommand → Server σ
  | .revoke peerKey => s.evictSessionsForKey peerKey
  | .listSessions => s
  | .disconnect sessionId peerKey => s.evictSessions sessionId peerKey

/-- Drop the sessions whose task has ended, and the addresses that point at no
    session. -/
def sweep (s : Server σ) : Server σ :=
  let sessions := s.sessions.retain fun _ h => !s.taskClosed h.task
  { s with
    sessions := sessions
    addrIndex := s.addrIndex.retain fun _ sid => (sessions.lookup sid).isSome }

/-- The end of `run_server`: every handle is dropped. -/
def shutdown (s : Server σ) : Server σ :=
  { s with
    sessions := ∅
    addrIndex := ∅
    tasks := s.tasks.map fun t => { t with held := false }
    tunWriteRx := []
    addrChangeRx := []
    stopped := true }

end Server

end Rustnies
