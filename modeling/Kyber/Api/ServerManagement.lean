import Kyber.Api.Rpc

/-!
# Server management (`server_management.go`)

A server is managed by its host, by the moderators whom the host has listed, and by
global moderators: `CanManage`. They ban, unban and kick players on the host's
behalf, so the issuer of a punishment is the host. A host lists moderators in a
field of the user document.

The message to the game server that a player is to be kicked, and commands, go to
the sockets and are left out.
-/

namespace Kyber.Api

open Kyber.Lib

/-- `isModerator`, and what comes after it. -/
def isModerator (user : UserModel) (serverID : String) (k : ServerModel → Handler) : Handler :=
  query (.serverByID serverID) .internal "Failed to get server" fun
    | none => refuse .notFound "Server not found"
    | some server =>
        query (.userByID server.hostID) .internal "Failed to get server host" fun
          | none => refuse .notFound "Server host not found"
          | some host =>
              if server.canManage host user then k server
              else refuse .permissionDenied "You are not a moderator of this server"

/-! ## Punishments -/

/-- What a call generates: `util.GenerateShortToken()` and the time. -/
structure Stamp where
  id : String
  now : Instant
  deriving DecidableEq, Repr

/-- The player whom `KickPlayer` and `BanPlayer` are about. -/
def targetPlayer (userID : String) (k : UserModel → Handler) : Handler :=
  query (.userByID userID) .internal "Failed to get target user" fun
    | none => refuse .notFound "Target user not found"
    | some target => k target

/-- The end of `KickPlayer` and `BanPlayer`. -/
def punish (punishment : PunishmentModel) : Handler :=
  query (.createPunishment punishment) .internal "Failed to create punishment"
    fun () => .ret (.ok .empty)

structure ServerKickPlayerRequest where
  id : String
  userID : String
  reason : String
  deriving DecidableEq, Repr

def kickPlayer (user : UserModel) (req : ServerKickPlayerRequest) (stamp : Stamp) : Handler :=
  isModerator user req.id fun server =>
    targetPlayer req.userID fun target =>
      if target.id = server.hostID then
        refuse .permissionDenied "You cannot kick the server host"
      else
        punish
          { id := stamp.id, type := .kick, issuer := some server.hostID, user := some target.id,
            reason := some req.reason, expiresAt := none, overturnedBy := none }

structure ServerBanPlayerRequest where
  id : String
  userID : String
  reason : String
  /-- in seconds -/
  duration : Option UInt64
  deriving DecidableEq, Repr

def banPlayer (user : UserModel) (req : ServerBanPlayerRequest) (stamp : Stamp) : Handler :=
  isModerator user req.id fun server =>
    targetPlayer req.userID fun target =>
      if target.id = server.hostID then
        refuse .permissionDenied "You cannot ban the server host"
      else
        query (.banForServer server.hostID target.id) .internal "Failed to check punishments" fun
          | some _ => refuse .permissionDenied "User is already banned"
          | none =>
              let expiresAt := req.duration.map fun d => dateOf (stamp.now.add (seconds d))
              punish
                { id := stamp.id, type := .ban, issuer := some server.hostID,
                  user := some target.id, reason := some req.reason, expiresAt,
                  overturnedBy := none }

structure UnbanPlayerRequest where
  serverID : String
  userID : String
  deriving DecidableEq, Repr

def unbanPlayer (user : UserModel) (req : UnbanPlayerRequest) : Handler :=
  isModerator user req.serverID fun server =>
    query (.banForServer server.hostID req.userID) .internal "Failed to get punishment" fun
      | none => refuse .notFound "Punishment not found"
      | some punishment =>
          query (.updatePunishment { punishment with overturnedBy := some user.id }) .internal
            "Failed to update punishment" fun () => .ret (.ok .empty)

/-! ## Moderators -/

/-- The end of `AddModerator` and `RemoveModerator`. -/
def writeModerators (userID : String) (moderatorUserIDs : List String) : Handler :=
  query (.setModerators userID moderatorUserIDs) .internal "Failed to update user"
    fun () => .ret (.ok .empty)

def addModerator (user : UserModel) (id : String) : Handler :=
  if user.moderatorUserIDs.contains id then
    refuse .alreadyExists "User is already a moderator"
  else
    query (.userByID id) .internal "Failed to get user" fun
      | none => refuse .notFound "User not found"
      | some moderator => writeModerators user.id (user.moderatorUserIDs ++ [moderator.id])

def removeModerator (user : UserModel) (id : String) : Handler :=
  match user.moderatorUserIDs.idxOf? id with
  | none => refuse .notFound "User is not a moderator"
  | some moderatorIndex =>
      writeModerators user.id (user.moderatorUserIDs.eraseIdx moderatorIndex)

/-- The end of `ModeratedServers`. -/
def listServers (ids : List String) : Handler :=
  query (.serversByIDs ids) .internal "Failed to get servers" fun servers =>
    .ret (.ok (.servers servers))

def moderatedServers (user : UserModel) : Handler :=
  if user.entitled .globalServerModerator then
    query .serverIDs .internal "Failed to get server IDs" listServers
  else if user.entitled .officialServerModerator then
    query .officialServers .internal "Failed to get official servers" fun officialServers =>
      listServers (officialServers.map (·.id))
  else
    query (.moderatedServers user.id) .internal "Failed to get moderated servers" listServers

/-! ## The calls that punish, one after the other -/

inductive PunishmentRequest
  | kick (user : UserModel) (req : ServerKickPlayerRequest) (stamp : Stamp)
  | ban (user : UserModel) (req : ServerBanPlayerRequest) (stamp : Stamp)
  | unban (user : UserModel) (req : UnbanPlayerRequest)
  deriving DecidableEq, Repr

def PunishmentRequest.handler : PunishmentRequest → Handler
  | .kick user req stamp => kickPlayer user req stamp
  | .ban user req stamp => banPlayer user req stamp
  | .unban user req => unbanPlayer user req

inductive PunishmentAction
  | request (r : PunishmentRequest)
  /-- time passes -/
  | wait (milliseconds : Nat)
  /-- the users and the servers change -/
  | others (users : List UserModel) (servers : List ServerModel)
  deriving DecidableEq, Repr

def punishmentStep (st : Store) : PunishmentAction → Option Store
  | .request r => some (r.handler.eval Store.perform st).1
  | .wait milliseconds => some { st with now := st.now + milliseconds }
  | .others users servers => some { st with users, servers }

/-! ## The calls that list moderators, interleaved -/

/-- A call with its authorization token. -/
inductive ModeratorRequest
  | add (token id : String)
  | remove (token id : String)
  deriving DecidableEq, Repr

def ModeratorRequest.handler : ModeratorRequest → Handler
  | .add token id => authenticated token (addModerator · id)
  | .remove token id => authenticated token (removeModerator · id)

def moderatorService : Service Store Op Ans Reply ModeratorRequest Outcome Empty where
  handler := ModeratorRequest.handler
  serve := Store.serve
  change st _ := st

end Kyber.Api
