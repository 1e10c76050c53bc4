import Mathlib.Data.List.Basic

/-!
# The proxy's tables (`user_manager.rs`, `utils.rs`)

The proxy relays packets between game servers and their clients, which it finds
in two concurrent maps: clients under a 16-bit id that is folded from their token,
servers under the `server_id` of theirs.

A connection is one task. Its channel ends are named by the task that reads from
them, so a `User`, which is a pair of senders, is the task at their other end.
`add_user` makes three separate accesses to the map. They are steps of the
connection (`Proxy.Connection`), because other tasks run in between; the other
methods make one access each and are functions here.
-/

namespace Kyber.Proxy

/-- A Rust `String` or `Vec<u8>`, as its bytes. -/
abbrev Bytes := List UInt8

/-- The connections, in the order they are accepted. -/
abbrev TaskId := Nat

inductive UserType
  | client (userId : UInt16) (serverId : Bytes)
  | server (serverId : Bytes)
  deriving DecidableEq, Repr

/-- `User`: `sender` and `cancel_token` lead to the same task. -/
structure User where
  userType : UserType
  sender : TaskId
  deriving DecidableEq, Repr

structure UserManager where
  users : Std.TreeMap UInt16 User := {}
  servers : Std.TreeMap Bytes User := {}

namespace UserManager

def getUserById (m : UserManager) (id : UInt16) : Option User := m.users[id]?

def getServerById (m : UserManager) (id : Bytes) : Option User := m.servers[id]?

def removeUser (m : UserManager) (id : UInt16) : UserManager :=
  { m with users := m.users.erase id }

/-- The last access of `add_user`. -/
def insertUser (m : UserManager) (id : UInt16) (user : User) : UserManager :=
  { m with users := m.users.insert id user }

def addServer (m : UserManager) (sender : TaskId) (serverId : Bytes) : UserManager :=
  { m with servers := m.servers.insert serverId { userType := .server serverId, sender } }

def removeServer (m : UserManager) (id : Bytes) : UserManager :=
  { m with servers := m.servers.erase id }

end UserManager

def convertToken (token : Bytes) : UInt16 :=
  token.foldl (fun acc byte => acc * 31 + byte.toUInt16) 0

/-- `prepend_identifier`: the identifier in big-endian order. -/
def prependIdentifier (packet : Bytes) (identifier : UInt16) : Bytes :=
  [(identifier >>> 8).toUInt8, identifier.toUInt8] ++ packet

/-- `extract_identifier`, which panics on a packet of less than two bytes. -/
def extractIdentifier : Bytes → Option (UInt16 × Bytes)
  | hi :: lo :: packet => some (hi.toUInt16 <<< 8 ||| lo.toUInt16, packet)
  | _ => none

end Kyber.Proxy
