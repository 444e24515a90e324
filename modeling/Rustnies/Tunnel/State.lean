import Rustnies.Carrier
import Rustnies.Congestion
import Rustnies.Crypto.Aead
import Rustnies.Fec.Adaptive
import Rustnies.Fec.Scheme
import Rustnies.Lib.Table
import Rustnies.Obfuscation
import Rustnies.Protocol.Frame
import Rustnies.Protocol.Session
import Rustnies.Transport
import Mathlib.Data.Rat.Defs
import Mathlib.Algebra.Order.Field.Rat

/-! # The state of a tunnel

`tunnel/mod.rs`: what one end of an established session holds. The parts fixed at
the handshake are in `Config`; what the run loop changes is in `Tunnel`. The last
fields of `Tunnel` are a record of what the tunnel has done to the outside: every
call of the cipher, every packet the carrier took, every retransmission, every
packet given to the TUN device, and every address change signalled to the
dispatcher.
-/

namespace Rustnies

def RX_GROUP_TTL : Duration := 5000000000
def ACK_EVERY : UInt32 := 4
def MAX_OUTSTANDING_CONTROL : Nat := 64
def MAX_RTT_SAMPLE : Duration := 10000000000
def MIN_SENT_PACKET_LIFETIME : Duration := 500000000
def LOSS_SAMPLE_PACKETS : Nat := 64
def LOSS_SAMPLE_SOURCES : Nat := 64
def SESSION_TIMEOUT : Duration := 75000000000

inductive TunnelExit where
  | stopped
  | peerClosed
  | sessionTimeout
  | udpClosed
  | tunError
  deriving Repr, DecidableEq

/-- A reliable control packet awaiting acknowledgement; `payload` is the datagram. -/
structure Outstanding where
  seq : UInt32
  ptype : PacketType
  payload : Bytes
  lastSent : Instant

inductive SentPacketKind where
  | data
  | parity
  deriving Repr, DecidableEq

structure SentPacket where
  bytes : Nat
  sentAt : Instant
  kind : SentPacketKind

structure LossWindow where
  total : Nat := 0
  lost : Nat := 0

def LossWindow.record (w : LossWindow) (lost : Bool) (sampleSize : Nat) :
    Option (Nat × Nat) × LossWindow :=
  let total := w.total + 1
  let lost := if lost then w.lost + 1 else w.lost
  if sampleSize ≤ total then (some (lost, total), {})
    else (none, { total := total, lost := lost })

/-- A receive-side FEC group: one slot per symbol, one flag per source. The two
    vectors are allocated with the group and never resized. -/
structure RxGroup where
  symbols : List (Option Bytes)
  k : UInt8
  m : UInt8
  delivered : List Bool
  decoded : Bool
  deadline : Instant
  slots : symbols.length = k.toNat + m.toNat
  flags : delivered.length = k.toNat

def RxGroup.new (k m : UInt8) (now : Instant) : RxGroup where
  symbols := List.replicate (k.toNat + m.toNat) none
  k := k
  m := m
  delivered := List.replicate k.toNat false
  decoded := false
  deadline := now + RX_GROUP_TTL
  slots := List.length_replicate
  flags := List.length_replicate

structure Counters where
  txPackets : UInt64 := 0
  txBytes : UInt64 := 0
  txDroppedMtu : UInt64 := 0
  txDroppedCongestion : UInt64 := 0
  txPaced : UInt64 := 0
  rxPackets : UInt64 := 0
  rxBytes : UInt64 := 0
  rttSamples : UInt64 := 0
  fecRecovered : UInt64 := 0

/-- `saturating_add(1)`. -/
def Counters.succ (n : UInt64) : UInt64 := if n = 0xFFFFFFFFFFFFFFFF then n else n + 1

/-- One call of `cipher.seal` under the send key. -/
structure SealCall where
  nonce : Bytes
  aad : Bytes
  plaintext : Bytes
  deriving DecidableEq

/-- A sealed packet that the carrier accepted. -/
structure Sent where
  hdr : PacketHeader
  payload : Bytes
  wire : Bytes
  dest : SocketAddr

/-- Why a packet was given to the TUN device. -/
inductive TunOrigin where
  | data (hdr : PacketHeader)
  | recovered (group : UInt16) (index : Nat)
  deriving DecidableEq

structure TunWrite where
  origin : TunOrigin
  bytes : Bytes
  deriving DecidableEq

/-- What the handshake and the configuration fixed. -/
structure Config (σ : Type) where
  aead : Aead UInt8
  sendKey : Bytes
  recvKey : Bytes
  sendDir : Direction
  recvDir : Direction
  codec : FrameCodec
  transport : Transport
  obfuscation : ObfuscationStack UInt8
  fec : FecScheme
  congestion : CongestionControl σ
  /-- `carrier.supports_roaming()`. -/
  supportsRoaming : Bool
  /-- Whether `addr_change_tx` is set, as it is on the server. -/
  signalsRoaming : Bool
  sessionTimeout : Duration

/-- What one step of the run loop reads from outside: the clocks, and whether the
    carrier and the TUN device accept what they are given. -/
structure Env where
  now : Instant
  /-- Microseconds since the epoch. -/
  wallMicros : UInt64
  sendOk : Bytes → SocketAddr → Bool
  tunSendOk : Bytes → Bool

structure Tunnel (σ : Type) where
  peer : SocketAddr
  session : Session
  congestion : σ
  fec : AdaptiveFec ℚ
  fecParams : FecParams
  groupId : UInt16 := 0
  groupIndex : UInt8 := 0
  groupBuffer : List Bytes := []
  outstanding : List Outstanding := []
  pingSeq : UInt32 := 0
  lastPeerActivity : Instant
  rxGroups : Table UInt16 RxGroup := ∅
  lastPeerAck : UInt32 := 0
  lastPeerBitmap : UInt32 := 0
  rxSinceAck : UInt32 := 0
  sentPackets : Table UInt32 SentPacket := ∅
  wireLossWindow : LossWindow := {}
  sourceLossWindow : LossWindow := {}
  pendingOut : Option Bytes := none
  pendingDeadline : Option Instant := none
  closing : Bool := false
  counters : Counters := {}
  exit : Option TunnelExit := none
  seals : List SealCall := []
  sent : List Sent := []
  resent : List (Bytes × SocketAddr) := []
  tunWrites : List TunWrite := []
  roamSignals : List (SessionId × SocketAddr) := []
  /-- What the reconciliations resolved so far: acknowledged or lost. -/
  resolutions : List (UInt32 × Bool × SentPacket) := []

/-- The `[fec]` section. -/
structure FecConfig where
  k : UInt8
  minM : UInt8
  maxM : UInt8
  initialM : UInt8

variable {σ : Type}

/-- A tunnel as the handshake hands it over. -/
def Tunnel.fromHandshake (peer : SocketAddr) (session : Session) (congestion : σ) (now : Instant) :
    Tunnel σ where
  peer := peer
  session := session
  congestion := congestion
  fec := .defaultForVpn
  fecParams := (AdaptiveFec.defaultForVpn (K := ℚ)).params
  lastPeerActivity := now

def Tunnel.configureFec (cfg : Config σ) (t : Tunnel σ) (fc : FecConfig) : Tunnel σ :=
  let active := cfg.fec.active
  let minM := if active then fc.minM else 0
  let maxM := if active then fc.maxM else 0
  let initialM := if active then fc.initialM else 0
  let fec : AdaptiveFec ℚ := .withParams fc.k minM maxM initialM (25 / 100)
  let params := fec.params
  if !active then { t with fec := fec, fecParams := { params with m := 0 } }
  else if params.k = 0 ∨ 255 < params.k.toNat + params.m.toNat then
    { t with fec := .defaultForVpn, fecParams := (AdaptiveFec.defaultForVpn (K := ℚ)).params }
  else { t with fec := fec, fecParams := params }

theorem Tunnel.configureFec_eq (cfg : Config σ) (t : Tunnel σ) (fc : FecConfig) :
    ∃ adaptive params, t.configureFec cfg fc = { t with fec := adaptive, fecParams :=
      params } := by
  cases active : cfg.fec.active with
  | false => exact ⟨_, _, by simp only [configureFec, active]; rfl⟩
  | true =>
      simp only [configureFec, active, Bool.not_true, Bool.false_eq_true, if_false, if_true]
      split
      · exact ⟨_, _, rfl⟩
      · exact ⟨_, _, rfl⟩

namespace Config

/-- Obfuscation layers, then the transport. -/
def wrapFrame (cfg : Config σ) (frame : Bytes) : Bytes :=
  cfg.transport.wrap (cfg.obfuscation.apply frame)

/-- The transport undone, then the layers in reverse. -/
def unwrapFrame (cfg : Config σ) (datagram : Bytes) : Option Bytes :=
  (cfg.transport.unwrap datagram).toOption.bind fun inner =>
    (ObfuscationStack.reverse cfg.obfuscation inner).toOption

/-- A frame is recovered from its datagram when the datagram is not too long for
    the 16-bit lengths of the padding layers. -/
theorem unwrapFrame_wrapFrame (cfg : Config σ) {frame : Bytes}
    (fits : (cfg.wrapFrame frame).length < 65536) :
    cfg.unwrapFrame (cfg.wrapFrame frame) = some frame := by
  have inner : (ObfuscationStack.apply cfg.obfuscation frame).length < 65536 := by
    refine Nat.lt_of_le_of_lt ?_ fits
    unfold wrapFrame Transport.wrap
    split
    · exact Nat.le_refl _
    · simp
  rw [unwrapFrame, wrapFrame, Transport.unwrap_wrap]
  simp only [Except.toOption, Option.bind_some, ObfuscationStack.reverse_apply _ inner]

end Config

end Rustnies
