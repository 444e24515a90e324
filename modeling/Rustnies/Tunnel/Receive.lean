import Rustnies.Tunnel.Send

/-! # The receive path

`tunnel/mod.rs`, receive half. A datagram is unwrapped, its header decoded, and
its body opened under the re-encoded header; only then does it touch the state.
Data and parity go into the group their header names. A vector index out of range
panics in the source and is `none` here.
-/

namespace Rustnies

variable {σ : Type} (cfg : Config σ) (env : Env)

/-! ## Authentication -/

/-- Why a datagram was dropped before it reached the state. -/
inductive Rejected where
  | envelope
  | decoy
  | header (e : FrameError)
  | tag
  deriving Repr, DecidableEq

namespace Config

/-- The associated data is the decoded header encoded again. -/
def openFrame (sessionId : SessionId) (frame : Bytes) : Except Rejected (PacketHeader × Bytes) :=
  if isDecoyFrame frame then .error .decoy
  else
    match cfg.codec.readHeader frame with
    | .error e => .error (.header e)
    | .ok hdr =>
        let body := frame.drop (min (cfg.codec.bodyOffset frame) frame.length)
        let nonce := makeNonce sessionId hdr.seq cfg.recvDir
        let aad := cfg.codec.encodeHeader hdr
        match cfg.aead.decrypt cfg.recvKey nonce aad body with
        | none => .error .tag
        | some plaintext => .ok (hdr, plaintext)

def openDatagram (sessionId : SessionId) (datagram : Bytes) :
    Except Rejected (PacketHeader × Bytes) :=
  match cfg.unwrapFrame datagram with
  | none => .error .envelope
  | some frame => cfg.openFrame sessionId frame

end Config

/-! ## FEC groups -/

namespace RxGroup

/-- Every packet of a group extends its life. -/
def refresh (g : RxGroup) (now : Instant) : RxGroup := { g with deadline := now + RX_GROUP_TTL }

/-- Put a symbol into its slot; `k` is the packet's own source count, not the
    group's. -/
def store (g : RxGroup) (index k : Nat) (payload : Bytes) (isData : Bool) : Option RxGroup :=
  match g.symbols[index]? with
  | none => none
  | some slot =>
      let stored := { g with
        symbols := g.symbols.set index (some payload)
        slots := (List.length_set ..).trans g.slots }
      if isData && slot.isNone && index < k then
        if index < g.delivered.length then
          some { stored with
            delivered := g.delivered.set index true
            flags := (List.length_set ..).trans g.flags }
        else none
      else some stored

def present (g : RxGroup) : Nat := g.symbols.countP Option.isSome

/-- The group with every source delivered, as it is kept for suppressing late
    originals. -/
def markDecoded (g : RxGroup) : RxGroup :=
  { g with decoded := true, delivered := List.replicate g.k.toNat true, flags :=
    List.length_replicate }

/-- The recovered sources that were not delivered before, with their indexes. -/
def lost (g : RxGroup) (recovered : List Bytes) : List (Nat × Bytes) :=
  recovered.zipIdx.filterMap fun (sym, i) =>
    if i < g.delivered.length && !g.delivered.getD i true then some (i, sym) else none

end RxGroup

namespace Tunnel

/-- Hand a packet to the TUN device. -/
def writeTun (t : Tunnel σ) (w : TunWrite) : Tunnel σ :=
  { t with tunWrites := t.tunWrites ++ [w] }

def isSourceDelivered (t : Tunnel σ) (group : UInt16) (index : UInt8) : Bool :=
  match t.rxGroups.lookup group with
  | none => false
  | some entry => if entry.k ≤ index then false else entry.delivered.getD index.toNat false

def recoverGroup (t : Tunnel σ) (group : UInt16) : Tunnel σ :=
  match t.rxGroups.lookup group with
  | none => t
  | some entry =>
      if entry.decoded then t
      else
        match cfg.fec.decode entry.k.toNat entry.m.toNat entry.symbols with
        | .error _ => t
        | .ok recovered =>
            let lost := entry.lost recovered
            { t with
              rxGroups := t.rxGroups.insert group entry.markDecoded
              tunWrites := t.tunWrites ++ lost.map fun (i, sym) => ⟨.recovered group i, sym⟩
              counters.fecRecovered :=
                t.counters.fecRecovered + (lost.countP fun (_, sym) => env.tunSendOk sym).toUInt64 }

/-- The group is created by, and sized after, whichever packet arrives first; the
    bound on the index is the packet's own. -/
def recordRxSymbol (t : Tunnel σ) (hdr : PacketHeader) (payload : Bytes) (isData : Bool) :
    Option (Tunnel σ) :=
  let entry := (t.rxGroups.lookup hdr.fecGroup).getD (.new hdr.fecK hdr.fecM env.now)
  let entry := entry.refresh env.now
  if hdr.fecK.toNat + hdr.fecM.toNat ≤ hdr.fecIndex.toNat then
    some { t with rxGroups := t.rxGroups.insert hdr.fecGroup entry }
  else
    (entry.store hdr.fecIndex.toNat hdr.fecK.toNat payload isData).map fun entry =>
      let t := { t with rxGroups := t.rxGroups.insert hdr.fecGroup entry }
      if !entry.decoded && hdr.fecK.toNat ≤ entry.present then t.recoverGroup cfg env hdr.fecGroup
      else t

def handleData (t : Tunnel σ) (hdr : PacketHeader) (payload : Bytes) : Option (Tunnel σ) :=
  if 0 < hdr.fecM && t.isSourceDelivered hdr.fecGroup hdr.fecIndex then
    t.recordRxSymbol cfg env hdr payload true
  else
    let t := t.writeTun ⟨.data hdr, payload⟩
    if 0 < hdr.fecM then t.recordRxSymbol cfg env hdr payload true else some t

def handleParity (t : Tunnel σ) (hdr : PacketHeader) (payload : Bytes) : Option (Tunnel σ) :=
  if hdr.fecM = 0 then some t else t.recordRxSymbol cfg env hdr payload false

def evictExpiredRxGroups (t : Tunnel σ) : Tunnel σ :=
  { t with rxGroups := t.rxGroups.retain fun _ group => env.now < group.deadline }

/-! ## Control packets -/

def handlePing (t : Tunnel σ) (payload : Bytes) : Tunnel σ := t.sendPacket cfg env .pong payload

/-- The timestamp of our own ping, echoed in bytes 4 to 12. -/
def handlePong (t : Tunnel σ) (payload : Bytes) : Tunnel σ :=
  if payload.length < 12 then t
  else
    let sentMicros := leValue (slice payload 4 12)
    if sentMicros ≤ env.wallMicros.toNat then
      let rtt := (env.wallMicros.toNat - sentMicros) * 1000
      { t with congestion := cfg.congestion.onRttSample t.congestion rtt }
    else t

/-! ## Dispatch -/

/-- Feed a new acknowledgement to the session and retire what it resolves. -/
def observePeerAcks (t : Tunnel σ) (hdr : PacketHeader) : Tunnel σ :=
  if hdr.ackSeq ≠ t.lastPeerAck ∨ hdr.ackBitmap ≠ t.lastPeerBitmap then
    let t := { t with session := t.session.observeAcks hdr.ackSeq hdr.ackBitmap }
    let (sampled, t) := t.reconcilePeerAcks cfg env
    let t := if sampled then { t with counters.rttSamples := Counters.succ t.counters.rttSamples }
      else t
    { t with lastPeerAck := hdr.ackSeq, lastPeerBitmap := hdr.ackBitmap }
  else t

/-- Roaming: send to the address the peer was heard from, and tell the dispatcher. -/
def followPeer (t : Tunnel σ) (source : SocketAddr) : Tunnel σ :=
  if source ≠ t.peer ∧ cfg.supportsRoaming then
    { t with
      peer := source
      roamSignals := if cfg.signalsRoaming then t.roamSignals ++ [(t.session.id, source)]
        else t.roamSignals }
  else t

/-- `saturating_add(1)`. -/
def saturatingSucc (n : UInt32) : UInt32 := if n = 0xFFFFFFFF then n else n + 1

/-- Peer activity, the advertised window, and an `Ack` for every fourth data or
    parity packet. -/
def noteReceived (t : Tunnel σ) (hdr : PacketHeader) : Tunnel σ :=
  let t := { t with
    lastPeerActivity := env.now
    session := { t.session with ack := t.session.ack.record hdr.seq } }
  if hdr.packetType = .data ∨ hdr.packetType = .fec then
    let rxSinceAck := saturatingSucc t.rxSinceAck
    if ACK_EVERY ≤ rxSinceAck then { t with rxSinceAck := 0 }.sendPacket cfg env .ack []
    else { t with rxSinceAck := rxSinceAck }
  else t

def countReceived (t : Tunnel σ) (payload : Bytes) : Tunnel σ :=
  { t with
    counters.rxPackets := t.counters.rxPackets + 1
    counters.rxBytes := t.counters.rxBytes + payload.length.toUInt64 }

def dispatch (t : Tunnel σ) (hdr : PacketHeader) (payload : Bytes) : Option (Tunnel σ) :=
  match hdr.packetType with
  | .data => t.handleData cfg env hdr payload
  | .fec => t.handleParity cfg env hdr payload
  | .ping => some (t.handlePing cfg env payload)
  | .pong => some (t.handlePong cfg env payload)
  | .close => some { t with closing := true }
  | _ => some t

/-- What an authenticated packet does. The replay window is consulted for reliable
    packets only. -/
def acceptPacket (t : Tunnel σ) (source : SocketAddr) (hdr : PacketHeader) (payload : Bytes) :
    Option (Tunnel σ) :=
  let t := ((t.observePeerAcks cfg env hdr).followPeer cfg source).noteReceived cfg env hdr
  if hdr.packetType.isReliable then
    match t.session.receiveReliable hdr.seq with
    | (false, session) => some { t with session := session }
    | (true, session) =>
        ({ t with session := session }.countReceived payload).dispatch cfg env hdr payload
  else (t.countReceived payload).dispatch cfg env hdr payload

def handleUdpDatagram (t : Tunnel σ) (datagram : Bytes) (source : SocketAddr) :
    Option (Tunnel σ) :=
  match cfg.openDatagram t.session.id datagram with
  | .error _ => some t
  | .ok (hdr, payload) => t.acceptPacket cfg env source hdr payload

end Tunnel

end Rustnies
