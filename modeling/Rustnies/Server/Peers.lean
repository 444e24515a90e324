import Rustnies.Lib.Table
import Rustnies.Protocol.Profile

/-! # Authorized peers

`tunnel/peers.rs`: the keys a server accepts, the keys revoked at run time, and
open mode.
-/

namespace Rustnies

/-- One `[[peers]]` table. -/
structure PeerEntry where
  publicKey : String
  name : Option String
  deriving Repr, DecidableEq

def hexDigit (c : Char) : Option UInt8 :=
  if '0' ≤ c ∧ c ≤ '9' then some (c.toNat - '0'.toNat).toUInt8
  else if 'a' ≤ c ∧ c ≤ 'f' then some (c.toNat - 'a'.toNat + 10).toUInt8
  else if 'A' ≤ c ∧ c ≤ 'F' then some (c.toNat - 'A'.toNat + 10).toUInt8
  else none

/-- `hex::decode`; an odd length is an error. -/
def hexDecode : List Char → Option Bytes
  | [] => some []
  | [_] => none
  | hi :: lo :: rest =>
      do return (16 * (← hexDigit hi) + (← hexDigit lo)) :: (← hexDecode rest)

structure PeerAuth where
  keys : Table Bytes (Option String)
  denylist : List Bytes
  opened : Bool

namespace PeerAuth

def openMode : PeerAuth where
  keys := ∅
  denylist := []
  opened := true

/-- Entries that are not 32 bytes of hex are skipped. -/
def insertEntry (keys : Table Bytes (Option String)) (entry : PeerEntry) :
    Table Bytes (Option String) :=
  let line := trim entry.publicKey
  if line = "" then keys
  else
    match hexDecode line.toList with
    | none => keys
    | some bytes =>
        if bytes.length ≠ 32 then keys
        else keys.insert bytes (entry.name.filter fun s => trim s ≠ "")

def fromEntries (peers : List PeerEntry) : PeerAuth where
  keys := peers.foldl insertEntry ∅
  denylist := []
  opened := false

def isRevoked (auth : PeerAuth) (key : Bytes) : Bool := key ∈ auth.denylist

def authorized (auth : PeerAuth) (key : Bytes) : Bool :=
  !auth.isRevoked key && (auth.opened || (auth.keys.lookup key).isSome)

def check (auth : PeerAuth) (key : Bytes) : Bool × Option String :=
  if auth.isRevoked key then (false, some "revoked")
  else if auth.opened then (true, none)
  else
    match auth.keys.lookup key with
    | some name => (true, name)
    | none => (false, none)

def revoke (auth : PeerAuth) (key : Bytes) : PeerAuth :=
  { auth with denylist := auth.denylist.insert key }

def unrevoke (auth : PeerAuth) (key : Bytes) : PeerAuth :=
  { auth with denylist := auth.denylist.filter (· ≠ key) }

def setPeers (auth : PeerAuth) (peers : List PeerEntry) : PeerAuth :=
  { auth with keys := (fromEntries peers).keys, opened := false }

def setOpen (auth : PeerAuth) : PeerAuth := { auth with keys := ∅, opened := true }

def isOpenMode (auth : PeerAuth) : Bool := auth.opened

end PeerAuth

end Rustnies
