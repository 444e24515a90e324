import Rustnies.Carrier
import Mathlib.Data.List.Induction

/-! # Reading messages off a stream

`TcpCarrier::read_message` takes the messages off the front of its buffer and reads
the socket when there is no whole one. What it yields depends on the stream alone,
not on how the reads cut it. A zero length is not consumed and not refused, so what
follows one is buffered without a bound.
-/

namespace Rustnies

inductive ReadError where
  | closed
  | closedMidMessage
  deriving Repr, DecidableEq

/-- What `read_message` reports at the end of the stream. -/
def readError (leftover : Bytes) : ReadError :=
  if leftover.isEmpty then .closed else .closedMidMessage

/-- `read_message`: a message, or the end of the stream, with the buffer it leaves and
    the reads that are still to come. An empty read is the end of the stream. -/
def readMessage :
    (leftover : Bytes) → (reads : List Bytes) → Except ReadError Bytes × Bytes × List Bytes
  | leftover, [] =>
      match takeMessage leftover with
      | some (message, rest) => (.ok message, rest, [])
      | none => (.error (readError leftover), leftover, [])
  | leftover, chunk :: reads =>
      match takeMessage leftover with
      | some (message, rest) => (.ok message, rest, chunk :: reads)
      | none =>
          if chunk.isEmpty then (.error (readError leftover), leftover, reads)
          else readMessage (leftover ++ chunk) reads

/-- Calls of `read_message` until one fails, at most the given number. -/
def readMessages : Nat → Bytes → List Bytes → List Bytes × Bytes × List Bytes
  | 0, leftover, reads => ([], leftover, reads)
  | n + 1, leftover, reads =>
      match readMessage leftover reads with
      | (.ok message, leftover, reads) =>
          let (messages, state) := readMessages n leftover reads
          (message :: messages, state)
      | (.error _, leftover, reads) => ([], leftover, reads)

/-- The complete messages at the front of a stream, as the reader delimits them. -/
def streamMessagesUpTo : Nat → Bytes → List Bytes
  | 0, _ => []
  | n + 1, buf =>
      match takeMessage buf with
      | none => []
      | some (message, rest) => message :: streamMessagesUpTo n rest

/-- Every message takes bytes from the buffer, so its length bounds their number. -/
def streamMessages (buf : Bytes) : List Bytes := streamMessagesUpTo buf.length buf

/-! ## One message -/

/-- What can be taken: a length that is not zero, and that many bytes. -/
theorem takeMessage_eq_some {buf message rest : Bytes} :
    takeMessage buf = some (message, rest) ↔
      buf = be16 message.length ++ message ++ rest ∧ message ≠ [] ∧
      message.length ≤ STREAM_MAX_MESSAGE := by
  simp only [takeMessage, Option.ite_none_left_eq_some, Option.some.injEq,
    Prod.mk.injEq, Nat.not_lt]
  constructor
  · rintro ⟨two, nonzero, whole, isMessage, isRest⟩
    rcases buf with _ | ⟨hi, _ | ⟨lo, buf⟩⟩
    · simp [STREAM_LEN_PREFIX] at two
    · simp [STREAM_LEN_PREFIX] at two
    · have isLength : be16Value (byteAt (hi :: lo :: buf) 0) (byteAt (hi :: lo :: buf) 1) =
        be16Value hi lo := rfl
      rw [isLength] at nonzero whole isMessage isRest
      have inside : be16Value hi lo ≤ buf.length := by
        simp only [STREAM_LEN_PREFIX, List.length_cons] at whole
        omega
      have behind : (hi :: lo :: buf).drop STREAM_LEN_PREFIX = buf := rfl
      have message_eq : buf.take (be16Value hi lo) = message := by
        rw [← isMessage, slice, behind, Nat.add_sub_cancel_left]
      have rest_eq : buf.drop (be16Value hi lo) = rest := by
        rw [← isRest, ← List.drop_drop, behind]
      have len : message.length = be16Value hi lo := by
        rw [← message_eq, List.length_take, Nat.min_eq_left inside]
      refine ⟨?_, ?_, ?_⟩
      · rw [len, be16_be16Value, ← message_eq, ← rest_eq, List.append_assoc,
          List.take_append_drop]
        rfl
      · intro empty
        rw [empty] at len
        exact nonzero len.symm
      · rw [len]
        exact Nat.le_of_lt_succ (be16Value_lt hi lo)
  · rintro ⟨rfl, nonempty, fits⟩
    have isLength : be16Value (byteAt (be16 message.length ++ message ++ rest) 0)
        (byteAt (be16 message.length ++ message ++ rest) 1) = message.length :=
      be16Value_be16 (Nat.lt_succ_of_le fits)
    have positive : message.length ≠ 0 :=
      fun empty => nonempty (List.eq_nil_of_length_eq_zero empty)
    rw [isLength]
    have behind : (be16 message.length ++ message ++ rest).drop STREAM_LEN_PREFIX =
      message ++ rest := rfl
    refine ⟨?_, positive, ?_, ?_, ?_⟩
    · simp [STREAM_LEN_PREFIX]
    · simp [STREAM_LEN_PREFIX]
    · rw [slice, behind, Nat.add_sub_cancel_left, List.take_left]
    · rw [← List.drop_drop, behind, List.drop_left]

theorem takeMessage_frame {message wire : Bytes} (framed : frameMessage message = some wire)
    (nonempty : message ≠ []) (rest : Bytes) :
    takeMessage (wire ++ rest) = some (message, rest) := by
  simp only [frameMessage, Option.ite_none_left_eq_some, Option.some.injEq, Nat.not_lt] at framed
  rw [← framed.2]
  exact takeMessage_eq_some.mpr ⟨rfl, nonempty, framed.1⟩

theorem takeMessage_append {buf message rest : Bytes}
    (taken : takeMessage buf = some (message, rest)) (more : Bytes) :
    takeMessage (buf ++ more) = some (message, rest ++ more) := by
  obtain ⟨rfl, nonempty, fits⟩ := takeMessage_eq_some.mp taken
  exact takeMessage_eq_some.mpr ⟨by simp only [List.append_assoc], nonempty, fits⟩

theorem takeMessage_length {buf message rest : Bytes}
    (taken : takeMessage buf = some (message, rest)) :
    rest.length < buf.length := by
  obtain ⟨rfl, -⟩ := takeMessage_eq_some.mp taken
  simp only [List.length_append, be16_length]
  omega

/-! ## Every way of cutting the stream -/

theorem readMessage_frame {message wire tail : Bytes} (framed : frameMessage message = some wire)
    (nonempty : message ≠ []) {leftover : Bytes} {reads : List Bytes}
    (data : ∀ chunk ∈ reads, chunk ≠ []) (stream : leftover ++ reads.flatten = wire ++ tail) :
    ∃ leftover' reads', readMessage leftover reads = (.ok message, leftover', reads') ∧
      leftover' ++ reads'.flatten = tail ∧ ∀ chunk ∈ reads', chunk ≠ [] := by
  have whole : takeMessage (leftover ++ reads.flatten) = some (message, tail) := by
    rw [stream]
    exact takeMessage_frame framed nonempty tail
  induction reads generalizing leftover with
  | nil =>
      rw [List.flatten_nil, List.append_nil] at whole
      refine ⟨tail, [], ?_, List.append_nil _, data⟩
      simp only [readMessage, whole]
  | cons chunk reads ih =>
      cases taken : takeMessage leftover with
      | some first =>
          obtain ⟨first, rest⟩ := first
          cases (takeMessage_append taken _).symm.trans whole
          refine ⟨rest, chunk :: reads, ?_, rfl, data⟩
          simp only [readMessage, taken]
      | none =>
          have here : chunk.isEmpty = false := by simpa using data chunk List.mem_cons_self
          simp only [readMessage, taken, here, Bool.false_eq_true, if_false]
          refine ih (fun c later => data c (List.mem_cons_of_mem _ later)) ?_ ?_
          · rw [List.append_assoc]
            exact stream
          · rw [List.append_assoc]
            exact whole

theorem readMessages_stream {messages wires : List Bytes}
    (sent : messages.mapM frameMessage = some wires)
    (nonempty : ∀ message ∈ messages, message ≠ []) {leftover : Bytes} {reads : List Bytes}
    (data : ∀ chunk ∈ reads, chunk ≠ []) (stream : leftover ++ reads.flatten = wires.flatten)
    {n : Nat} (calls : messages.length ≤ n) :
    readMessages n leftover reads = (messages, [], []) := by
  induction messages generalizing wires leftover reads n with
  | nil =>
      cases sent
      obtain ⟨rfl, empty⟩ := List.append_eq_nil_iff.mp stream
      have done : reads = [] := List.eq_nil_iff_forall_not_mem.mpr fun chunk member =>
        data chunk member (List.flatten_eq_nil_iff.mp empty chunk member)
      subst done
      cases n with
      | zero => rfl
      | succ n => rfl
  | cons message messages ih =>
      simp only [List.mapM_cons, Option.bind_eq_bind, Option.bind_eq_some_iff, Option.pure_def,
        Option.some.injEq] at sent
      obtain ⟨wire, framed, wires, rest, rfl⟩ := sent
      obtain ⟨leftover', reads', read, left, data'⟩ :=
        readMessage_frame framed (nonempty message List.mem_cons_self) data stream
      cases n with
      | zero => cases calls
      | succ n =>
          have later :=
            ih rest (fun m member => nonempty m (List.mem_cons_of_mem _ member)) data' left
            (Nat.le_of_succ_le_succ calls)
          simp only [readMessages, read, later]

theorem mapM_frameMessage {messages : List Bytes}
    (fit : ∀ message ∈ messages, message.length ≤ STREAM_MAX_MESSAGE) :
    messages.mapM frameMessage =
    some (messages.map fun message => be16 message.length ++ message) := by
  induction messages with
  | nil => rfl
  | cons message messages ih =>
      have here := fit message List.mem_cons_self
      rw [List.mapM_cons, ih fun m member => fit m (List.mem_cons_of_mem _ member), frameMessage,
        if_neg (Nat.not_lt.mpr here)]
      rfl

/-- However the reads cut the stream, the messages come out as they were sent, and
    nothing is left. -/
theorem readMessages_chunks {messages : List Bytes}
    (sizes : ∀ message ∈ messages, 1 ≤ message.length ∧ message.length ≤ 65535) :
    ∃ wires, messages.mapM frameMessage = some wires ∧
      ∀ reads, (∀ chunk ∈ reads, chunk ≠ []) → reads.flatten = wires.flatten →
        ∀ n, messages.length ≤ n → readMessages n [] reads = (messages, [], []) := by
  have sent := mapM_frameMessage fun message member => (sizes message member).2
  refine ⟨_, sent, fun reads data cut n calls => ?_⟩
  refine readMessages_stream sent (fun message member empty => ?_) data cut calls
  have positive := (sizes message member).1
  rw [empty] at positive
  cases positive

/-- Two messages read one byte at a time. -/
theorem readMessages_single_bytes :
    readMessages 2 [] ([0, 2, 7, 8, 0, 1, 9].map fun byte => [byte]) = ([[7, 8], [9]], [], []) := by
  obtain ⟨wires, sent, read⟩ := @readMessages_chunks [[7, 8], [9]] (by decide)
  have framed : [[7, 8], [9]].mapM frameMessage = some [[0, 2, 7, 8], [0, 1, 9]] := by decide
  rw [Option.some.inj (sent.symm.trans framed)] at read
  exact read _ (by decide) (by decide) 2 (by decide)

/-! ## What the reader holds -/

/-- What a read of at most `n` bytes takes from the socket. -/
def Connection.nextRead (c : Connection) (n : Nat) : Bytes :=
  c.unread.take (min (max n 1) STREAM_CHUNK)

/-- A call of `read_message` from a turn of the reader on. -/
def Connection.callFrom (c : Connection) (n : Nat) (reads : List Bytes) :
    Except ReadError Bytes × Bytes × List Bytes :=
  match c.readTurn n with
  | (.message message, c') => (.ok message, c'.leftover, c.nextRead n :: reads)
  | (_, c') => readMessage c'.leftover reads

/-- A turn of the reader is one pass of the loop of `read_message`. -/
theorem readMessage_readTurn (c : Connection) (n : Nat) (waiting : c.unread ≠ [])
    (reads : List Bytes) :
    readMessage c.leftover (c.nextRead n :: reads) = c.callFrom n reads := by
  have some_ : (c.nextRead n).isEmpty = false := by
    rw [Connection.nextRead, List.isEmpty_eq_false_iff, ne_eq, List.take_eq_nil_iff]
    simp only [STREAM_CHUNK, waiting, or_false]
    omega
  have unread : c.unread.isEmpty = false := by simpa using waiting
  simp only [readMessage, Connection.callFrom, Connection.readTurn]
  cases takeMessage c.leftover with
  | some taken => rfl
  | none =>
      simp only [some_, unread, Bool.false_eq_true, if_false]
      rfl

/-- The bytes after the last complete message of a stream. -/
def streamRestUpTo : Nat → Bytes → Bytes
  | 0, buf => buf
  | n + 1, buf =>
      match takeMessage buf with
      | none => buf
      | some (_, rest) => streamRestUpTo n rest

def streamRest (buf : Bytes) : Bytes := streamRestUpTo buf.length buf

theorem streamRestUpTo_eq {n m : Nat} {buf : Bytes} (enough : buf.length ≤ n)
    (enough' : buf.length ≤ m) :
    streamRestUpTo n buf = streamRestUpTo m buf := by
  induction n generalizing m buf with
  | zero =>
      rw [List.eq_nil_of_length_eq_zero (Nat.le_zero.mp enough)]
      cases m with
      | zero => rfl
      | succ m => rfl
  | succ n ih =>
      cases m with
      | zero =>
          rw [List.eq_nil_of_length_eq_zero (Nat.le_zero.mp enough')]
          rfl
      | succ m =>
          simp only [streamRestUpTo]
          cases taken : takeMessage buf with
          | none => rfl
          | some first =>
              have shorter := takeMessage_length taken
              exact ih (by omega) (by omega)

theorem streamRest_none {buf : Bytes} (stuck : takeMessage buf = none) : streamRest buf = buf := by
  rw [streamRest]
  cases buf.length with
  | zero => rfl
  | succ n => simp only [streamRestUpTo, stuck]

theorem streamRest_some {buf message rest : Bytes}
    (taken : takeMessage buf = some (message, rest)) :
    streamRest buf = streamRest rest := by
  have shorter := takeMessage_length taken
  calc streamRest buf = streamRestUpTo (buf.length + 1) buf :=
        streamRestUpTo_eq (Nat.le_refl _) (Nat.le_succ _)
    _ = streamRestUpTo buf.length rest := by simp only [streamRestUpTo, taken]
    _ = streamRest rest := streamRestUpTo_eq (Nat.le_of_lt shorter) (Nat.le_refl _)

theorem streamRest_append (front more : Bytes) :
    streamRest (front ++ more) = streamRest (streamRest front ++ more) := by
  induction len : front.length using Nat.strong_induction_on generalizing front with
  | h n ih =>
      cases taken : takeMessage front with
      | none => rw [streamRest_none taken]
      | some first =>
          obtain ⟨message, rest⟩ := first
          rw [streamRest_some taken, streamRest_some (takeMessage_append taken more)]
          exact ih rest.length (len ▸ takeMessage_length taken) rest rfl

/-- A buffer that begins with a zero length: nothing is ever taken from it. -/
def ZeroLength (buf : Bytes) : Prop := ∃ rest, buf = 0 :: 0 :: rest

theorem ZeroLength.append {buf : Bytes} (zero : ZeroLength buf) (more : Bytes) :
    ZeroLength (buf ++ more) := by
  obtain ⟨rest, rfl⟩ := zero
  exact ⟨rest ++ more, rfl⟩

theorem ZeroLength.stuck {buf : Bytes} (zero : ZeroLength buf) : takeMessage buf = none := by
  obtain ⟨rest, rfl⟩ := zero
  have isZero : be16Value (byteAt (0 :: 0 :: rest) 0) (byteAt (0 :: 0 :: rest) 1) = 0 := by
    simp [byteAt, be16Value]
  simp only [takeMessage, isZero, if_true]
  exact ite_self none

/-- A buffer without a whole message begins with a zero length, or is shorter than
    the longest message with its length. -/
theorem length_of_takeMessage_none {buf : Bytes} (stuck : takeMessage buf = none) :
    ZeroLength buf ∨ buf.length < STREAM_LEN_PREFIX + STREAM_MAX_MESSAGE := by
  rcases buf with _ | ⟨hi, _ | ⟨lo, buf⟩⟩
  · exact .inr (by simp [STREAM_LEN_PREFIX, STREAM_MAX_MESSAGE])
  · exact .inr (by simp [STREAM_LEN_PREFIX, STREAM_MAX_MESSAGE])
  · have isLength : be16Value (byteAt (hi :: lo :: buf) 0) (byteAt (hi :: lo :: buf) 1) =
      be16Value hi lo := rfl
    have small := be16Value_lt hi lo
    simp only [takeMessage, isLength] at stuck
    by_cases zero : be16Value hi lo = 0
    · refine .inl ⟨buf, ?_⟩
      have bytes := be16_be16Value hi lo
      rw [zero] at bytes
      cases bytes
      rfl
    · refine .inr ?_
      by_contra long
      rw [if_neg (by simp [STREAM_LEN_PREFIX]), if_neg zero, if_neg ?_] at stuck
      · cases stuck
      · simp only [STREAM_LEN_PREFIX, STREAM_MAX_MESSAGE] at long ⊢
        omega

/-- The client sends bytes, or the reader takes a turn. -/
inductive ReaderEvent where
  | arrives (chunk : Bytes)
  | turn (n : Nat)
  deriving Repr, DecidableEq

def Connection.react (c : Connection) : ReaderEvent → Connection
  | .arrives chunk => { c with unread := c.unread ++ chunk }
  | .turn n => (c.readTurn n).2

/-- A connection after the given events. -/
def Connection.after (peer : SocketAddr) (events : List ReaderEvent) : Connection :=
  events.foldl Connection.react { peer := peer }

/-- What the client has sent. -/
def sentIn (events : List ReaderEvent) : Bytes :=
  events.flatMap fun
    | .arrives chunk => chunk
    | .turn _ => []

/-- The most that a reader may hold: a whole message with its length, and one read. -/
def READER_BOUND : Nat := STREAM_LEN_PREFIX + STREAM_MAX_MESSAGE + STREAM_CHUNK

theorem streamRest_readTurn (c : Connection) (n : Nat) :
    streamRest ((c.readTurn n).2.leftover ++ (c.readTurn n).2.unread) = streamRest
    (c.leftover ++ c.unread) := by
  simp only [Connection.readTurn]
  cases taken : takeMessage c.leftover with
  | some first => exact (streamRest_some (takeMessage_append taken c.unread)).symm
  | none =>
      simp only
      split
      · rfl
      · simp only [List.append_assoc, List.take_append_drop]

theorem streamRest_after (peer : SocketAddr) (events : List ReaderEvent) :
    streamRest ((Connection.after peer events).leftover ++ (Connection.after peer events).unread) =
      streamRest (sentIn events) := by
  induction events using List.reverseRecOn with
  | nil => rfl
  | append_singleton events e ih =>
      simp only [Connection.after, List.foldl_append, List.foldl_cons, List.foldl_nil, sentIn,
        List.flatMap_append, List.flatMap_cons, List.flatMap_nil, List.append_nil] at ih ⊢
      cases e with
      | arrives chunk =>
          simp only [Connection.react, ← List.append_assoc]
          rw [streamRest_append, ih, ← streamRest_append]
      | turn n =>
          simp only [Connection.react, List.append_nil]
          rw [streamRest_readTurn, ih]

theorem leftover_after (peer : SocketAddr) (events : List ReaderEvent) :
    ZeroLength (Connection.after peer events).leftover ∨
      (Connection.after peer events).leftover.length ≤ READER_BOUND := by
  induction events using List.reverseRecOn with
  | nil => exact .inr (Nat.zero_le _)
  | append_singleton events e ih =>
      simp only [Connection.after, List.foldl_append, List.foldl_cons, List.foldl_nil] at ih ⊢
      generalize events.foldl Connection.react { peer := peer } = c at ih ⊢
      cases e with
      | arrives chunk => exact ih
      | turn n =>
          simp only [Connection.react, Connection.readTurn]
          cases taken : takeMessage c.leftover with
          | some first =>
              rcases ih with zero | bounded
              · rw [zero.stuck] at taken
                cases taken
              · have shorter := takeMessage_length taken
                exact .inr (by simp only; omega)
          | none =>
              simp only
              split
              · exact ih
              · rcases length_of_takeMessage_none taken with zero | short
                · exact .inl (zero.append _)
                · refine .inr ?_
                  simp only [List.length_append, List.length_take, READER_BOUND]
                  omega

theorem exists_turns (c : Connection) :
    ∃ turns : List Nat, (turns.map ReaderEvent.turn).foldl Connection.react c =
      { c with leftover := streamRest (c.leftover ++ c.unread), unread := [] } := by
  induction size : 2 * c.unread.length + c.leftover.length using Nat.strong_induction_on
    generalizing c with
  | h size₀ ih =>
      -- a turn that does something, and what the turns after it do
      have step : ∀ c' : Connection, (c.readTurn 1).2 = c' → c'.peer = c.peer → c'.eof =
        c.eof → 2 * c'.unread.length + c'.leftover.length < size₀ →
          ∃ turns : List Nat, (turns.map ReaderEvent.turn).foldl Connection.react c =
            { c with leftover := streamRest (c.leftover ++ c.unread), unread := [] } := by
        intro c' turned peer eof smaller
        obtain ⟨turns, read⟩ := ih _ smaller c' rfl
        refine ⟨1 :: turns, ?_⟩
        rw [List.map_cons, List.foldl_cons, Connection.react, turned, read, ← turned,
          streamRest_readTurn, turned, peer, eof]
      cases taken : takeMessage c.leftover with
      | some first =>
          have shorter := takeMessage_length taken
          refine step { c with leftover := first.2 } ?_ rfl rfl (by simp only; omega)
          simp only [Connection.readTurn, taken]
      | none =>
          by_cases empty : c.unread = []
          · refine ⟨[], ?_⟩
            rw [empty, List.append_nil, streamRest_none taken, List.map_nil, List.foldl_nil]
            rw [← empty]
          · have some_ : 0 < c.unread.length := List.length_pos_iff.mpr empty
            refine step { c with
              leftover := c.leftover ++ c.unread.take 1
              unread := c.unread.drop 1 } ?_ rfl rfl ?_
            · simp only [Connection.readTurn, taken, List.isEmpty_iff, if_neg empty]
              rfl
            · simp only [List.length_append, List.length_take, List.length_drop]
              omega

/-- A reader whose turns are the passes of `read_message` stays within its bound on a
    stream, however it arrives and is read, exactly when a zero length in it is followed by
    few enough bytes. -/
theorem leftover_bounded_iff (peer : SocketAddr) (stream : Bytes) :
    (∀ (c : Connection) (n : Nat) (reads : List Bytes), c.unread ≠ [] →
      readMessage c.leftover (c.nextRead n :: reads) = c.callFrom n reads) ∧
    ((∀ events, sentIn events <+: stream → (Connection.after peer events).leftover.length ≤
      READER_BOUND) ↔
      (ZeroLength (streamRest stream) → (streamRest stream).length ≤ READER_BOUND)) := by
  refine ⟨fun c n reads waiting => readMessage_readTurn c n waiting reads, ?_⟩
  constructor
  · intro bounded _
    obtain ⟨turns, read⟩ := exists_turns { peer := peer, unread := stream }
    have sent : sentIn (.arrives stream :: turns.map ReaderEvent.turn) = stream := by
      simp [sentIn, List.flatMap_map]
    have all : sentIn (.arrives stream :: turns.map ReaderEvent.turn) <+: stream := by
      simp only [sent, List.prefix_rfl]
    have held := bounded (.arrives stream :: turns.map ReaderEvent.turn) all
    simp only [Connection.after, List.foldl_cons, Connection.react, List.nil_append] at held
    rw [read] at held
    exact held
  · intro short events sent
    rcases leftover_after peer events with zero | bounded
    · obtain ⟨more, rfl⟩ := sent
      have still := (zero.append (Connection.after peer events).unread).append more
      have rest : streamRest (sentIn events ++ more) =
          (Connection.after peer events).leftover ++
            (Connection.after peer events).unread ++ more := by
        rw [streamRest_append, ← streamRest_after peer events, ← streamRest_append,
          streamRest_none still.stuck]
      rw [rest] at short
      have whole := short still
      simp only [List.length_append] at whole
      omega
    · exact bounded

/-- A stream of zeros is buffered whole. -/
theorem zeros_exceed_bound :
    ∃ events, sentIn events = List.replicate (READER_BOUND + 1) 0 ∧
      READER_BOUND < (Connection.after ⟨.v4 1, 1⟩ events).leftover.length := by
  obtain ⟨turns, read⟩ :=
    exists_turns { peer := ⟨.v4 1, 1⟩, unread := List.replicate (READER_BOUND + 1) 0 }
  refine ⟨.arrives (List.replicate (READER_BOUND + 1) 0) :: turns.map ReaderEvent.turn, ?_, ?_⟩
  · simp [sentIn, List.flatMap_map]
  · have zero : ZeroLength (List.replicate (READER_BOUND + 1) 0) :=
      ⟨List.replicate (READER_BOUND - 1) 0,
        by simp only [READER_BOUND, ← List.replicate_succ]; rfl⟩
    simp only [Connection.after, List.foldl_cons, Connection.react, List.nil_append]
    rw [read, List.nil_append, streamRest_none zero.stuck, List.length_replicate]
    exact Nat.lt_succ_self _

end Rustnies
