import Rustnies.Tunnel.State
import Mathlib.Data.List.Sort

/-! # The send paths

`tunnel/mod.rs`, send half: data packets with their FEC group, parity at the end
of a full group, best-effort control packets, reliable control packets with their
retransmission, and the accounting of acknowledged and lost packets. All four
emission paths draw their sequence number from `alloc_seq` and seal through
`sealPacket`.
-/

namespace Rustnies.Tunnel

variable {σ : Type} (cfg : Config σ) (env : Env)

/-- `alloc_seq`, and a header that carries the current acknowledgement. -/
def nextHeader (t : Tunnel σ) (ptype : PacketType) : PacketHeader × Tunnel σ :=
  let (seq, session) := t.session.allocSeq
  let (ackSeq, ackBitmap) := session.ackSnapshot
  ({ PacketHeader.new ptype session.id seq with ackSeq := ackSeq, ackBitmap := ackBitmap },
    { t with session := session })

/-- Seal the payload under the header's nonce with the encoded header as associated
    data; the result is the datagram, or nothing if the cipher refused. -/
def sealPacket (t : Tunnel σ) (hdr : PacketHeader) (payload : Bytes) : Option Bytes × Tunnel σ :=
  let nonce := makeNonce t.session.id hdr.seq cfg.sendDir
  let aad := cfg.codec.encodeHeader hdr
  let t := { t with seals := t.seals ++ [{ nonce := nonce, aad := aad, plaintext := payload }] }
  ((cfg.aead.encrypt cfg.sendKey nonce aad payload).map fun ciphertext =>
    cfg.wrapFrame (cfg.codec.encodeFrame hdr ciphertext), t)

/-- Record a packet that the carrier took. -/
def recordSent (t : Tunnel σ) (hdr : PacketHeader) (payload wire : Bytes) : Tunnel σ :=
  { t with sent := t.sent ++ [{ hdr := hdr, payload := payload, wire := wire, dest := t.peer }] }

def refund (t : Tunnel σ) (len : Nat) : Tunnel σ :=
  { t with congestion := cfg.congestion.refundSendBytes t.congestion len }

/-! ## Control packets -/

/-- A best-effort packet: no retransmission, no congestion accounting. -/
def sendPacket (t : Tunnel σ) (ptype : PacketType) (payload : Bytes) : Tunnel σ :=
  let (hdr, t) := t.nextHeader ptype
  match t.sealPacket cfg hdr payload with
  | (none, t) => t
  | (some wire, t) => if env.sendOk wire t.peer then t.recordSent hdr payload wire else t

/-- A reliable control packet, registered for retransmission. -/
def sendControl (t : Tunnel σ) (ptype : PacketType) (payload : Bytes) : Tunnel σ :=
  let (hdr, t) := t.nextHeader ptype
  match t.sealPacket cfg hdr payload with
  | (none, t) => t
  | (some wire, t) =>
      if env.sendOk wire t.peer then
        let t := t.recordSent hdr payload wire
        if t.outstanding.length < MAX_OUTSTANDING_CONTROL then
          { t with outstanding := t.outstanding ++
              [{ seq := hdr.seq, ptype := ptype, payload := wire, lastSent := env.now }] }
        else t
      else t

def u64Bytes (n : UInt64) : Bytes := leBytes 8 n.toNat

def sendKeepalive (t : Tunnel σ) : Tunnel σ :=
  t.sendPacket cfg env .keepalive (u64Bytes env.wallMicros)

def sendPing (t : Tunnel σ) : Tunnel σ :=
  let t := { t with pingSeq := t.pingSeq + 1 }
  t.sendPacket cfg env .ping (u32Bytes t.pingSeq ++ u64Bytes env.wallMicros)

def flushCoalescedAck (t : Tunnel σ) : Tunnel σ :=
  if 0 < t.rxSinceAck then { t with rxSinceAck := 0 }.sendPacket cfg env .ack [] else t

/-! ## Data and parity -/

def noteSentPacket (t : Tunnel σ) (seq : UInt32) (len : Nat) (kind : SentPacketKind) : Tunnel σ :=
  { t with sentPackets :=
      t.sentPackets.insert seq { bytes := len, sentAt := env.now, kind := kind } }

/-- A data or parity packet that the carrier took. -/
def noteTransmitted (t : Tunnel σ) (hdr : PacketHeader) (payload wire : Bytes) (len : Nat)
    (kind : SentPacketKind) : Tunnel σ :=
  let t := (t.recordSent hdr payload wire).noteSentPacket env hdr.seq len kind
  { t with
    counters.txPackets := t.counters.txPackets + 1
    counters.txBytes := t.counters.txBytes + payload.length.toUInt64 }

/-- One parity symbol of the group that was just filled. -/
def sendParity (k : Nat) (flushedGroupId : UInt16) (t : Tunnel σ) (parity : Bytes) (i : Nat) :
    Tunnel σ :=
  let plen := max parity.length 1
  let (admitted, congestion) := cfg.congestion.trySendParity env.now t.congestion plen
  let t := { t with congestion := congestion }
  if !admitted then
    { t with counters.txDroppedCongestion := Counters.succ t.counters.txDroppedCongestion }
  else
    let (hdr, t) := t.nextHeader .fec
    let hdr := { hdr with
      fecGroup := flushedGroupId
      fecIndex := UInt8.ofNat k + UInt8.ofNat i
      fecK := t.fecParams.k
      fecM := t.fecParams.m }
    match t.sealPacket cfg hdr parity with
    | (none, t) => t.refund cfg plen
    | (some wire, t) =>
        if PATH_MTU < wire.length + OUTER_OVERHEAD then
          { t with counters.txDroppedMtu := Counters.succ t.counters.txDroppedMtu }.refund cfg plen
        else if env.sendOk wire t.peer then t.noteTransmitted env hdr parity wire plen .parity
        else t.refund cfg plen

/-- `s.resize(len, 0)`, for sources no longer than `len`. -/
def padTo (len : Nat) (s : Bytes) : Bytes := s ++ List.replicate (len - s.length) 0

/-- Reset the accumulation and, for a full group, emit the parity. -/
def flushFecGroup (t : Tunnel σ) : Tunnel σ :=
  if t.groupBuffer.isEmpty then t
  else
    let k := t.fecParams.k.toNat
    let m := t.fecParams.m.toNat
    let real := t.groupBuffer.length
    let len := (t.groupBuffer.map List.length).foldl max 0
    let sources := t.groupBuffer.map (padTo len)
    let flushedGroupId := t.groupId
    let t := { t with groupBuffer := [], groupIndex := 0, groupId := t.groupId + 1 }
    if m = 0 ∨ real < k then t
    else
      match cfg.fec.encode k m sources with
      | .error _ => t
      | .ok parities => parities.zipIdx.foldl
          (fun t (parity, i) => t.sendParity cfg env k flushedGroupId parity i) t

def flushFecGroupIfStale (t : Tunnel σ) : Tunnel σ :=
  if t.groupBuffer.isEmpty then t else t.flushFecGroup cfg env

/-- Put a packet that was sent into its group, and flush the group when that fills it. -/
def joinGroup (t : Tunnel σ) (k : UInt8) (packet : Bytes) : Tunnel σ :=
  let t := { t with groupBuffer := t.groupBuffer ++ [packet], groupIndex := t.groupIndex + 1 }
  if k ≤ t.groupIndex then t.flushFecGroup cfg env else t

/-- The part of `handle_tun_packet` after the congestion gate. -/
def sendData (t : Tunnel σ) (packet : Bytes) (len : Nat) : Bool × Tunnel σ :=
  let (hdr, t) := t.nextHeader .data
  let hdr := { hdr with
    fecGroup := t.groupId
    fecIndex := t.groupIndex
    fecK := t.fecParams.k
    fecM := t.fecParams.m }
  match t.sealPacket cfg hdr packet with
  | (none, t) => (false, t.refund cfg len)
  | (some wire, t) =>
      if PATH_MTU < wire.length + OUTER_OVERHEAD then
        (false,
          { t with counters.txDroppedMtu := Counters.succ t.counters.txDroppedMtu }.refund cfg len)
      else if env.sendOk wire t.peer then
        (true, (t.noteTransmitted env hdr packet wire len .data).joinGroup cfg env hdr.fecK packet)
      else (false, t.refund cfg len)

/-- A packet read from the TUN device; `false` says that it was not sent. -/
def handleTunPacket (t : Tunnel σ) (packet : Bytes) : Bool × Tunnel σ :=
  if MAX_PAYLOAD < packet.length then
    (false, { t with counters.txDroppedMtu := Counters.succ t.counters.txDroppedMtu })
  else
    let len := max packet.length 1
    if cfg.congestion.sendBudget t.congestion < len then
      (false,
        { t with counters.txDroppedCongestion := Counters.succ t.counters.txDroppedCongestion })
    else
      let (admitted, congestion) := cfg.congestion.maySend env.now t.congestion len
      if !admitted then
        (false,
          { t with congestion := congestion, counters.txPaced := Counters.succ t.counters.txPaced })
      else
        { t with congestion := cfg.congestion.onSendBytes env.now congestion len }.sendData cfg
          env packet len

/-- Set the one-packet queue in front of the pacer. -/
def park (t : Tunnel σ) (packet : Option Bytes) (deadline : Option Instant) : Tunnel σ :=
  { t with pendingOut := packet, pendingDeadline := deadline }

/-- Park a packet that only the pacer held back. -/
def parkIfPaced (t : Tunnel σ) (packet : Bytes) : Tunnel σ :=
  match cfg.congestion.nextSendDeadline env.now t.congestion with
  | some deadline => t.park (some packet) (some deadline)
  | none => t

def retryPending (t : Tunnel σ) : Tunnel σ :=
  match t.pendingOut with
  | none => t.park none none
  | some packet =>
      match (t.park none t.pendingDeadline).handleTunPacket cfg env packet with
      | (true, t) => t.park t.pendingOut none
      | (false, t) => (t.park t.pendingOut none).parkIfPaced cfg env packet

/-! ## Acknowledged and lost packets -/

def applyFecParams (t : Tunnel σ) : Tunnel σ := { t with fecParams := t.fec.params }

/-- How the acknowledgement window resolves a packet in flight: acknowledged, lost,
    or still open. -/
def resolve (t : Tunnel σ) (seq : UInt32) (sent : SentPacket) : Option Bool :=
  if t.session.peerAcked seq then some true
  else
    let back := t.session.peerAck - seq
    let expiry := max (cfg.congestion.rto t.congestion) MIN_SENT_PACKET_LIFETIME
    if (32 < back ∧ back ≤ 0x7FFFFFFF) ∨ expiry ≤ env.now - sent.sentAt then some false
    else none

/-- Feed one resolved packet to the loss windows. -/
def noteResolved (t : Tunnel σ) (acked : Bool) (kind : SentPacketKind) : Tunnel σ :=
  let t := match t.wireLossWindow.record (!acked) LOSS_SAMPLE_PACKETS with
    | (some (lost, total), w) =>
        { t with wireLossWindow := w
                 congestion := cfg.congestion.onLoss env.now t.congestion lost total }
    | (none, w) => { t with wireLossWindow := w }
  if kind = .data then
    match t.sourceLossWindow.record (!acked) LOSS_SAMPLE_SOURCES with
    | (some (lost, total), w) =>
        { t with sourceLossWindow := w
                 fec := t.fec.observeUnrecoverable lost total }.applyFecParams
    | (none, w) => { t with sourceLossWindow := w }
  else t

/-- Retire the packets the peer has acknowledged or that count as lost; the result
    says whether an RTT sample was taken. -/
def reconcilePeerAcks (t : Tunnel σ) : Bool × Tunnel σ :=
  let resolved := t.sentPackets.entries.filterMap fun e =>
    (t.resolve cfg env e.1 e.2).map fun acked => (e.1, acked, e.2)
  let resolved := resolved.insertionSort fun a b => a.2.2.sentAt ≤ b.2.2.sentAt
  let acked := resolved.filter fun r => r.2.1
  let ackedBytes := (acked.map fun r => r.2.2.bytes).sum
  let lostBytes := ((resolved.filter fun r => !r.2.1).map fun r => r.2.2.bytes).sum
  let oldestAck := (acked.map fun r => r.2.2.sentAt).min?
  let t := { t with
    sentPackets := resolved.foldl (fun sent r => sent.erase r.1) t.sentPackets
    resolutions := t.resolutions ++ resolved }
  let rtt := (oldestAck.map fun at_ => env.now - at_).filter fun rtt => 0 < rtt ∧
    rtt ≤ MAX_RTT_SAMPLE
  let t :=
    if 0 < ackedBytes then
      match rtt with
      | some rtt =>
          { t with congestion := cfg.congestion.onAckWithRtt env.now t.congestion ackedBytes rtt }
      | none => { t with congestion := cfg.congestion.onAckBytes env.now t.congestion ackedBytes }
    else t
  let t := if 0 < lostBytes then
      { t with congestion := cfg.congestion.release t.congestion lostBytes }
    else t
  (0 < ackedBytes && rtt.isSome,
    resolved.foldl (fun t r => t.noteResolved cfg env r.2.1 r.2.2.kind) t)

/-- Resend control packets whose timeout has passed, then drop the acknowledged ones. -/
def checkRetransmits (t : Tunnel σ) : Tunnel σ :=
  let (_, t) := t.reconcilePeerAcks cfg env
  let rto := cfg.congestion.rto t.congestion
  let due (o : Outstanding) : Bool := rto ≤ env.now - o.lastSent
  let outstanding := t.outstanding.map fun o => if due o then { o with lastSent := env.now } else o
  { t with
    resent := t.resent ++ (t.outstanding.filter due).map fun o => (o.payload, t.peer)
    outstanding := outstanding.filter fun o => !t.session.peerAcked o.seq }

end Rustnies.Tunnel
