import Rustnies.Bytes

/-! # Carriers

`carrier/mod.rs`: what the protocol's messages travel over. A datagram carrier
delimits by itself and may see its peer move; a stream carrier puts a two-byte
big-endian length before each message and is pinned to its connection.
-/

namespace Rustnies

inductive IpAddr where
  | v4 (bits : BitVec 32)
  | v6 (bits : BitVec 128)
  deriving Repr, DecidableEq

structure SocketAddr where
  ip : IpAddr
  port : UInt16
  deriving Repr, DecidableEq

inductive Carrier where
  | udp
  | tcp
  deriving Repr, DecidableEq

namespace Carrier

def name : Carrier → String
  | .udp => "udp"
  | .tcp => "tcp"

def preservesBoundaries : Carrier → Bool
  | .udp => true
  | .tcp => false

def supportsRoaming (carrier : Carrier) : Bool := carrier.preservesBoundaries

/-- The registry behind `connect_carrier` and `bind_carrier_listener`; any other
    name is an error. -/
def ofName : String → Option Carrier
  | "udp" => some .udp
  | "tcp" => some .tcp
  | _ => none

end Carrier

/-! ## Length-delimited streams -/

def STREAM_LEN_PREFIX : Nat := 2
def STREAM_MAX_MESSAGE : Nat := 65535
/-- The buffer of one read. -/
def STREAM_CHUNK : Nat := 8192

/-- `TcpCarrier::send`: the bytes that go onto the stream. -/
def frameMessage (data : Bytes) : Option Bytes :=
  if STREAM_MAX_MESSAGE < data.length then none else some (be16 data.length ++ data)

/-- The first message of the buffer, and what follows it. -/
def takeMessage (buf : Bytes) : Option (Bytes × Bytes) :=
  if buf.length < STREAM_LEN_PREFIX then none
  else
    let len := be16Value (byteAt buf 0) (byteAt buf 1)
    if len = 0 then none
    else if buf.length < STREAM_LEN_PREFIX + len then none
    else some (slice buf STREAM_LEN_PREFIX (STREAM_LEN_PREFIX + len),
      buf.drop (STREAM_LEN_PREFIX + len))

/-- The server's end of an accepted connection: what the reader holds, and what has
    arrived but has not been read. -/
structure Connection where
  peer : SocketAddr
  leftover : Bytes := []
  unread : Bytes := []
  /-- The client has closed its end. -/
  eof : Bool := false
  deriving Repr, DecidableEq

/-- One turn of `read_message`: a message that is complete, or else one read of at
    most the given number of bytes. -/
inductive ReadTurn where
  | message (bytes : Bytes)
  | more
  | closed
  | wait
  deriving Repr, DecidableEq

def Connection.readTurn (c : Connection) (n : Nat) : ReadTurn × Connection :=
  match takeMessage c.leftover with
  | some (msg, rest) => (.message msg, { c with leftover := rest })
  | none =>
      if c.unread.isEmpty then (if c.eof then .closed else .wait, c)
      else
        let n := min (max n 1) STREAM_CHUNK
        (.more, { c with leftover := c.leftover ++ c.unread.take n, unread := c.unread.drop n })

end Rustnies
