import Rustnies.Tunnel.Closing
import Rustnies.Tunnel.HeaderBinding

/-! # Datagrams that do not open

The receive path decodes an envelope, a header and a body before it knows that any of it
comes from the peer. Whatever the bytes decode to, a datagram that does not pass the tag
leaves no trace: the loop goes on as if it had not arrived.
-/

namespace Rustnies

variable {σ : Type} {cfg : Config σ}

namespace Config

/-- The stages at which a datagram fails. -/
inductive Unopened (cfg : Config σ) (sessionId : SessionId) (datagram : Bytes) : Prop where
  | envelope (fails : cfg.unwrapFrame datagram = none)
  | header {frame : Bytes} {e : FrameError} (unwrapped : cfg.unwrapFrame datagram = some frame)
      (fails : cfg.codec.readHeader frame = .error e)
  | tag {frame : Bytes} {hdr : PacketHeader} (unwrapped : cfg.unwrapFrame datagram = some frame)
      (read : cfg.codec.readHeader frame = .ok hdr)
      (fails : cfg.aead.decrypt cfg.recvKey (makeNonce sessionId hdr.seq cfg.recvDir)
        (cfg.codec.encodeHeader hdr) (cfg.bodyOf frame) = none)

/-- The three stages are all there are: a decoy has no header. -/
theorem unopened_iff {sessionId : SessionId} {datagram : Bytes} :
    cfg.Unopened sessionId datagram ↔ ∃ why, cfg.openDatagram sessionId datagram =
    .error why := by
  constructor
  · intro unopened
    cases unopened with
    | envelope fails => exact ⟨.envelope, by simp only [openDatagram, fails]⟩
    | @header frame e unwrapped fails =>
        simp only [openDatagram, unwrapped, openFrame, fails]
        split
        · exact ⟨_, rfl⟩
        · exact ⟨_, rfl⟩
    | tag unwrapped read fails =>
        simp only [openDatagram, unwrapped, cfg.openFrame_of_read read, fails]
        exact ⟨_, rfl⟩
  · rintro ⟨why, rejected⟩
    cases unwrapped : cfg.unwrapFrame datagram with
    | none => exact .envelope unwrapped
    | some frame =>
        cases read : cfg.codec.readHeader frame with
        | error e => exact .header unwrapped read
        | ok hdr =>
            refine .tag unwrapped read ?_
            simp only [openDatagram, unwrapped, cfg.openFrame_of_read read] at rejected
            split at rejected
            · assumption
            · cases rejected

end Config

namespace Tunnel

variable {t t' : Tunnel σ}

theorem handleUdpDatagram_unopened {datagram : Bytes}
    (unopened : cfg.Unopened t.session.id datagram) (env : Env) (source : SocketAddr) :
    t.handleUdpDatagram cfg env datagram source = some t := by
  obtain ⟨why, rejected⟩ := Config.unopened_iff.mp unopened
  simp only [handleUdpDatagram, rejected]

theorem step_unopened {datagram : Bytes} (calm : t.Calm)
    (unopened : cfg.Unopened t.session.id datagram) (env : Env) (source : SocketAddr) :
    t.step cfg (env, .datagram datagram source) = some t := by
  cases running : t.exit with
  | some exit => exact step_exited _ (by rw [running]; rfl)
  | none =>
      rw [step_running _ running, handleEvent, handleUdpDatagram_unopened unopened, Option.map_some,
        calm running, if_neg Bool.false_ne_true]

/-- A turn of the loop that is anything but a datagram that does not open. -/
def Genuine (cfg : Config σ) (sessionId : SessionId) (turn : Env × Event) : Bool :=
  match turn.2 with
  | .datagram datagram _ => (cfg.openDatagram sessionId datagram).toOption.isSome
  | _ => true

theorem step_not_genuine {turn : Env × Event} (calm : t.Calm)
    (forged : Genuine cfg t.session.id turn = false) :
    t.step cfg turn = some t := by
  obtain ⟨env, event⟩ := turn
  cases event with
  | datagram datagram source =>
      refine step_unopened calm (Config.unopened_iff.mpr ?_) env source
      cases opened : cfg.openDatagram t.session.id datagram with
      | error why => exact ⟨why, rfl⟩
      | ok packet => simp [Genuine, opened, Except.toOption] at forged
  | _ => cases forged

theorem run_filter_genuine (calm : t.Calm) (turns : List (Env × Event)) :
    t.run cfg turns = t.run cfg (turns.filter (Genuine cfg t.session.id)) := by
  induction turns generalizing t with
  | nil => rfl
  | cons turn turns ih =>
      cases genuine : Genuine cfg t.session.id turn with
      | false =>
          rw [List.filter_cons_of_neg (by simp [genuine]), ← ih calm, run, Runs.run_cons,
            step_not_genuine calm genuine, Option.bind_some]
      | true =>
          rw [List.filter_cons_of_pos genuine]
          simp only [run, Runs.run_cons]
          cases stepped : t.step cfg turn with
          | none => rfl
          | some mid =>
              obtain ⟨packets, emits, -⟩ := step_emits stepped
              have rest := ih (step_calm stepped calm)
              rw [emits.id] at rest
              exact rest

/-- In every state that a tunnel reaches, a datagram that fails to unwrap, to parse or to
    open leaves the whole tunnel as it was, and the loop's turn with it. -/
theorem unopened_datagram_ignored {peer : SocketAddr} {session : Session} {congestion : σ}
    {now : Instant} {fec : FecConfig} {turns : List (Env × Event)}
    (reached : run cfg ((fromHandshake peer session congestion now).configureFec cfg fec) turns =
      some t) {datagram : Bytes} (unopened : cfg.Unopened t.session.id datagram) (env : Env)
    (source : SocketAddr) :
    t.handleUdpDatagram cfg env datagram source = some t ∧ t.step cfg
    (env, .datagram datagram source) = some t := by
  have calm : t.Calm := Runs.invariant (fun _ _ _ => step_calm) reached
    (fromHandshake_calm peer session congestion now fec)
  exact ⟨handleUdpDatagram_unopened unopened env source, step_unopened calm unopened env source⟩

/-- The sealed packet arrives, and the tunnel reads one from its own device. -/
def heardAndSent : List (Env × Event) :=
  [(sampleEnv 0 0, .datagram (Config.sampleHeader.toBytes ++ Config.sampleBody) (sampleAddr 1)),
    (sampleEnv 1 0, .tun [4, 5])]

/-- Then a copy of the packet with another sequence number comes from another address. -/
theorem changed_copy_ignored :
    let cfg := Config.boundConfig .v1Fixed
    let start : Tunnel Unit :=
      (fromHandshake (sampleAddr 1) (.new 7 .responder) () 0).configureFec cfg ⟨8, 0, 4, 2⟩
    let datagram := Config.sampleHeader.toBytes.set 6 9 ++ Config.sampleBody
    ∃ t, run cfg start heardAndSent = some t ∧ t.tunWrites.map TunWrite.bytes = [[1, 2, 3]] ∧
      t.sent.length = 1 ∧ t.step cfg (sampleEnv 2 0, .datagram datagram (sampleAddr 2)) =
        some t := by
  intro cfg start datagram
  have evaluated : ((run cfg start heardAndSent).any fun t => decide (t.session.id = 7 ∧
      t.tunWrites.map TunWrite.bytes = [[1, 2, 3]] ∧ t.sent.length = 1)) = true :=
      by decide +kernel
  obtain ⟨t, reached, checked⟩ := (Option.any_eq_true _ _).mp evaluated
  obtain ⟨sid, written, sent⟩ := of_decide_eq_true checked
  have read : cfg.codec.readHeader datagram = .ok { Config.sampleHeader with seq := 9 } := by decide
  have refused : cfg.aead.decrypt cfg.recvKey (makeNonce 7 9 cfg.recvDir)
      (cfg.codec.encodeHeader { Config.sampleHeader with seq := 9 }) (cfg.bodyOf datagram) = none :=
      by decide
  have unopened : cfg.Unopened t.session.id datagram := .tag rfl read (by rw [sid]; exact refused)
  exact ⟨t, reached, written, sent,
    (unopened_datagram_ignored reached unopened (sampleEnv 2 0) (sampleAddr 2)).2⟩

end Tunnel

end Rustnies
