import Rustnies.Tunnel.Arrival

/-! # The two ends of a session

What one end seals, the other end opens: the frame survives the layers and the
transport, the header is read back, and the body opens under it.
-/

namespace Rustnies.Config

variable {σ : Type} (cfg : Config σ) {sid : SessionId} {h : PacketHeader} {frame : Bytes}

/-- What `handle_udp_datagram` takes for the body of a frame. -/
def bodyOf (frame : Bytes) : Bytes := frame.drop (min (cfg.codec.bodyOffset frame) frame.length)

theorem openFrame_of_read (read : cfg.codec.readHeader frame = .ok h) :
    cfg.openFrame sid frame =
      match cfg.aead.decrypt cfg.recvKey (makeNonce sid h.seq cfg.recvDir)
      (cfg.codec.encodeHeader h) (cfg.bodyOf frame) with
      | none => .error .tag
      | some plaintext => .ok (h, plaintext) := by
  have real : isDecoyFrame frame = false := by
    unfold isDecoyFrame
    rcases FrameCodec.head_of_readHeader cfg.codec read with version | magic
    · rw [version]
      rfl
    · rw [magic]
      rfl
  rw [openFrame, real, read]
  rfl

/-- A frame that opens carries a header that could be read. -/
theorem read_of_openFrame {opened : PacketHeader × Bytes}
    (ok : cfg.openFrame sid frame = .ok opened) :
    cfg.codec.readHeader frame = .ok opened.1 ∧
    cfg.aead.decrypt cfg.recvKey (makeNonce sid opened.1.seq cfg.recvDir)
      (cfg.codec.encodeHeader opened.1) (cfg.bodyOf frame) = some opened.2 := by
  cases read : cfg.codec.readHeader frame with
  | error e =>
      rw [openFrame, read] at ok
      split at ok <;> cases ok
  | ok hdr =>
      rw [cfg.openFrame_of_read read] at ok
      split at ok
      · cases ok
      · rename_i plaintext opens
        cases ok
        exact ⟨rfl, opens⟩

theorem bodyOf_encodeFrame (h : PacketHeader) (body : Bytes) :
    cfg.bodyOf (cfg.codec.encodeFrame h body) = body := by
  have size : (cfg.codec.encodeHeader h).length ≤ (cfg.codec.encodeFrame h body).length := by
    simp [FrameCodec.encodeFrame]
  rw [bodyOf, FrameCodec.bodyOffset_encodeFrame, Nat.min_eq_left size, FrameCodec.encodeFrame,
    List.drop_left]

variable {τ : Type}

/-- The receiver was set up for what the sender sends. The cipher is correct: it
    opens what it sealed. -/
structure Receives (rx : Config τ) (tx : Config σ) : Prop where
  codec : rx.codec = tx.codec
  transport : rx.transport = tx.transport
  obfuscation : rx.obfuscation = tx.obfuscation
  fec : rx.fec = tx.fec
  direction : rx.recvDir = tx.sendDir
  opens : ∀ {nonce aad message ciphertext},
    tx.aead.encrypt tx.sendKey nonce aad message = some ciphertext →
    rx.aead.decrypt rx.recvKey nonce aad ciphertext = some message

/-- A data or parity packet opens at the other end as it was sealed. -/
theorem openDatagram_sent {rx : Config τ} {tx : Config σ} (pair : Receives rx tx) {s : Sent}
    (sealed : Sealed tx sid s) (fec : s.IsFec) :
    rx.openDatagram sid s.wire = .ok (s.hdr, s.payload) := by
  obtain ⟨ciphertext, encrypted, wire⟩ := sealed.cipher
  have short : (tx.wrapFrame (tx.codec.encodeFrame s.hdr ciphertext)).length < 65536 := by
    have fits := sealed.fits fec
    rw [wire, show PATH_MTU = 1500 from rfl] at fits
    omega
  have unwrapped : rx.unwrapFrame s.wire = some (rx.codec.encodeFrame s.hdr ciphertext) := by
    rw [wire, pair.codec, unwrapFrame, pair.transport, pair.obfuscation]
    exact tx.unwrapFrame_wrapFrame short
  have read := FrameCodec.readHeader_encodeFrame rx.codec sealed.current ciphertext
  rw [openDatagram, unwrapped]
  change rx.openFrame sid (rx.codec.encodeFrame s.hdr ciphertext) = _
  rw [rx.openFrame_of_read read, rx.bodyOf_encodeFrame, pair.codec, pair.direction,
    pair.opens encrypted]

end Rustnies.Config

namespace Rustnies.Tunnel

variable {σ τ : Type} {tx : Config σ} {rx : Config τ}

/-- A tunnel that has received nothing. -/
structure Fresh (t : Tunnel τ) : Prop where
  rxGroups : t.rxGroups = ∅
  tunWrites : t.tunWrites = []
  closing : t.closing = false
  exit : t.exit = none

/-- Every data and parity packet that opens in these turns is one of `sent`: packets
    may be lost, repeated and reordered, and not forged. -/
def Delivers (rx : Config τ) (sid : SessionId) (sent : List Sent) (turns : List (Env × Event)) :
    Prop :=
  ∀ turn ∈ turns, ∀ bytes source hdr payload, turn.2 = .datagram bytes source →
    rx.openDatagram sid bytes = .ok (hdr, payload) →
    hdr.packetType = .data ∨ hdr.packetType = .fec →
    ∃ s ∈ sent, s.hdr = hdr ∧ s.payload = payload

theorem sealed_of_run {t t' : Tunnel σ} {turns : List (Env × Event)} (silent : t.sent = [])
    (ran : run tx t turns = some t') {s : Sent} (member : s ∈ t'.sent) :
    Sealed tx t.session.id s := by
  obtain ⟨packets, emits⟩ := run_emits ran
  rw [emits.sent, silent, List.nil_append] at member
  exact emits.all s member

theorem delivers_of_wires (pair : rx.Receives tx) {sid : SessionId} {sent : List Sent}
    {turns : List (Env × Event)} (sealed : ∀ s ∈ sent, Sealed tx sid s)
    (wires : ∀ turn ∈ turns, ∀ bytes source, turn.2 = .datagram bytes source →
      ∃ s ∈ sent, s.IsFec ∧ bytes = s.wire) : Delivers rx sid sent turns := by
  intro turn member bytes source hdr payload event opened _
  obtain ⟨s, inside, fec, rfl⟩ := wires turn member bytes source event
  rw [Config.openDatagram_sent pair (sealed s inside) fec] at opened
  cases opened
  exact ⟨s, inside, rfl, rfl⟩

/-- The loop of the session `sid` is running. -/
structure Running (sid : SessionId) (t : Tunnel τ) : Prop where
  own : t.session.id = sid
  closing : t.closing = false
  exit : t.exit = none

theorem Fresh.running {sid : SessionId} {t : Tunnel τ} (fresh : Fresh t)
    (own : t.session.id = sid) :
    Running sid t :=
  ⟨own, fresh.closing, fresh.exit⟩

theorem step_sent (pair : rx.Receives tx) {sid : SessionId} {t : Tunnel τ}
    (running : Running sid t) {s : Sent} (sealed : Sealed tx sid s) (fec : s.IsFec) (env : Env)
    (source : SocketAddr) :
    (step rx t (env, .datagram s.wire source)).map rxState =
      t.rxState.accept rx.fec env.now s.hdr s.payload ∧
    ∀ t', step rx t (env, .datagram s.wire source) = some t' → Running sid t' := by
  have opened : rx.openDatagram t.session.id s.wire = .ok (s.hdr, s.payload) := by
    rw [running.own]
    exact Config.openDatagram_sent pair sealed fec
  have notClose : s.hdr.packetType ≠ .close := by
    rcases fec with data | parity
    · rw [data]; nofun
    · rw [parity]; nofun
  rw [step_running _ running.exit]
  constructor
  · rw [(handleEvent_spec rx env t (.datagram s.wire source)).rx]
    simp only [RxState.react, opened]
  · intro t' stepped
    obtain ⟨exit, closing⟩ :=
      datagram_stays opened notClose running.exit running.closing stepped
    obtain ⟨packets, emits, -⟩ :=
      (handleEvent_spec rx env t (.datagram s.wire source)).sends t' stepped
    exact ⟨emits.id.trans running.own, closing, exit⟩

/-! ## Fixed sessions -/

/-- A cipher for fixed runs: sixteen bytes of tag and no secrecy. -/
def sampleAead : Aead UInt8 where
  encrypt _ _ _ message := some (message ++ List.replicate TAG_LEN 0)
  decrypt _ _ _ sealed :=
    if sealed.length < TAG_LEN then none else some (sealed.take (sealed.length - TAG_LEN))

/-- One end of a session over plain UDP: the fixed codec, no layers, no congestion
    control. -/
def sampleConfig (sendDir recvDir : Direction) : Config Unit where
  aead := sampleAead
  sendKey := []
  recvKey := []
  sendDir := sendDir
  recvDir := recvDir
  codec := .v1Fixed
  transport := .plain
  obfuscation := []
  fec := .reedSolomon
  congestion := noCongestionControl
  supportsRoaming := true
  signalsRoaming := true
  sessionTimeout := SESSION_TIMEOUT

def sampleAddr (port : UInt16) : SocketAddr := ⟨.v4 0x0A000001, port⟩

def sampleTunnel (params : FecParams) : Tunnel Unit :=
  { Tunnel.fromHandshake (sampleAddr 1) (.new 7 .initiator) () 0 with fecParams := params }

/-- A turn at the given time, with a carrier that takes everything. -/
def sampleEnv (now : Instant) (wallMicros : UInt64) : Env where
  now := now
  wallMicros := wallMicros
  sendOk _ _ := true
  tunSendOk _ := true

theorem sampleConfig_receives (here there : Direction) :
    (sampleConfig here there).Receives (sampleConfig there here) := by
  refine ⟨rfl, rfl, rfl, rfl, rfl, fun sealed => ?_⟩
  cases sealed
  simp [sampleConfig, sampleAead]

end Rustnies.Tunnel

/-! ## Frames on the wire -/

namespace Rustnies.Config

variable {σ τ : Type}

/-- Every frame comes through the layers and the transport of the two ends, whatever
    the layers and their order, as long as it fits the lengths of the padding. -/
theorem unwrapFrame_of_undoes {tx : Config σ} {rx : Config τ}
    (transport : rx.transport = tx.transport)
    (undoes : List.Forall₂ ObfuscationLayer.Undoes tx.obfuscation rx.obfuscation) {frame : Bytes}
    (fits : ObfuscationStack.PaddingFits tx.obfuscation frame) :
    rx.unwrapFrame (tx.wrapFrame frame) = some frame := by
  rw [unwrapFrame, wrapFrame, transport, Transport.unwrap_wrap]
  simp only [Except.toOption, Option.bind_some,
    ObfuscationStack.reverse_apply_of_undoes undoes fits]

/-- Whitening, padding and whitening again, keyed from one seed at both ends. -/
def layeredConfig (buckets : List Nat) : Config Unit :=
  { Tunnel.sampleConfig .initiatorToResponder .responderToInitiator with
    transport := .tagged 0x52 0x4E
    obfuscation := ObfuscationStack.init
      (fun seed => ⟨(seed ++ List.replicate HEADER_LEN 0).take HEADER_LEN, by simp⟩) [7, 8, 9]
      [.headerXor none, .padding ⟨buckets, 1400⟩, .timing, .headerXor none] }

theorem layeredConfig_unwraps :
    (layeredConfig []).unwrapFrame ((layeredConfig [64]).wrapFrame (List.replicate 30 5)) =
      some (List.replicate 30 5) := by
  have fits : ObfuscationStack.PaddingFits (layeredConfig [64]).obfuscation (List.replicate 30 5) :=
    ObfuscationStack.paddingFits_of_short (by decide)
  have undoes : List.Forall₂ ObfuscationLayer.Undoes (layeredConfig [64]).obfuscation
      (layeredConfig []).obfuscation := by
    simp only [layeredConfig, ObfuscationStack.init, List.map_cons, List.map_nil]
    refine .cons ?_ (.cons ?_ (.cons ?_ (.cons ?_ .nil)))
    · exact (ObfuscationLayer.Undoes.headerXor none).init _ _
    · exact (ObfuscationLayer.Undoes.padding _ _).init _ _
    · exact ObfuscationLayer.Undoes.timing.init _ _
    · exact (ObfuscationLayer.Undoes.headerXor none).init _ _
  have transport : (layeredConfig []).transport = (layeredConfig [64]).transport := rfl
  exact unwrapFrame_of_undoes transport undoes fits

end Rustnies.Config
