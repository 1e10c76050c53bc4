import Kyber.Lib.Documents
import Kyber.Lib.Handlers

/-!
# The API's database (`pkg/models`, `pkg/repository`)

The collections that the modelled calls use, with the fields they read, and the
repository methods as calls to the store. A query with `FindOne` answers the first
match in the order of insertion; the key `_id` is unique, so an insertion of a
second document with one fails. An update changes the first match, and is no error
when there is none.

A call may also fail, without effect or after it: `Outcome` is how the database
lets it end. `perform` is the call that is answered.
-/

namespace Kyber.Api

open Kyber.Lib

/-- A date as the database keeps it: milliseconds since 1970. -/
abbrev Time := Int

structure JoinTokenModel where
  id : String
  token : String
  user : String
  server : String
  created : Time
  deriving DecidableEq, Repr

inductive UserEntitlement
  | admin
  | whitelisted
  | globalServerModerator
  | officialServerModerator
  | staff
  | dockerPush
  | officialServers
  | verifiedServers
  | officialStats
  | patreonPerks
  | disableNameSync
  | autoApproveModImages
  | unknown
  deriving DecidableEq, Repr

structure UserModel where
  id : String
  token : String := ""
  name : String
  moderatorUserIDs : List String := []
  entitlements : List UserEntitlement := []
  /-- `PatreonData != nil` -/
  hasPatreonData : Bool := false
  deriving DecidableEq, Repr

namespace UserModel

def entitled (u : UserModel) (e : UserEntitlement) : Bool := u.entitlements.contains e

def isPatron (u : UserModel) : Bool := u.entitled .patreonPerks || u.hasPatreonData

def getServerLimit (u : UserModel) : Nat :=
  if u.entitled .officialServers then 100
  else if u.entitled .verifiedServers then 6
  else if u.isPatron then 4
  else 2

end UserModel

structure ServerModel where
  id : String
  name : String
  password : Option String
  hostID : String
  playerCount : UInt32
  maxPlayerCount : UInt32
  official : Bool
  lastUpdated : Time
  proxyToken : String
  deriving DecidableEq, Repr

/-- `CanManage`, for a user and a server that are there. -/
def ServerModel.canManage (server : ServerModel) (host user : UserModel) : Bool :=
  user.entitled .globalServerModerator || user.id == server.hostID ||
    host.moderatorUserIDs.contains user.id

inductive PunishmentType
  | kick
  | ban
  deriving DecidableEq, Repr

/-- A punishment, without what is only shown to moderators. -/
structure PunishmentModel where
  id : String
  type : PunishmentType
  /-- the host who issued it, none for a global one -/
  issuer : Option String
  user : Option String
  reason : Option String
  expiresAt : Option Time
  overturnedBy : Option String
  deriving DecidableEq, Repr

/-- The filter of `GetBanForServer` and `GetGlobalBan`. -/
def PunishmentModel.isBan (p : PunishmentModel) (issuer : Option String) (userID : String)
    (now : Time) : Bool :=
  p.user == some userID && p.type == .ban && p.issuer == issuer && p.overturnedBy.isNone &&
    match p.expiresAt with
    | none => true
    | some t => now < t

inductive ReportStatus
  | new
  | resolved
  | rejected
  deriving DecidableEq, Repr

/-- A report, without what is only shown to moderators. -/
structure ReportModel where
  id : String
  reporterID : String
  reportedPlayerID : String
  status : ReportStatus
  deriving DecidableEq, Repr

/-- The filters of `UpdateByFilter`, both of new reports only. -/
inductive ReportFilter
  | ids (ids : List String)
  | reportedPlayer (id : String)
  deriving DecidableEq, Repr

def ReportFilter.selects (filter : ReportFilter) (r : ReportModel) : Bool :=
  r.status == .new &&
    match filter with
    | .ids among => among.contains r.id
    | .reportedPlayer id => r.reportedPlayerID == id

structure Store where
  joinTokens : List JoinTokenModel := []
  users : List UserModel := []
  servers : List ServerModel := []
  punishments : List PunishmentModel := []
  reports : List ReportModel := []
  now : Time := 0
  deriving DecidableEq, Repr

/-- The repository methods. -/
inductive Op
  | createJoinToken (token : JoinTokenModel)
  | joinTokenByToken (token : String)
  | joinTokensByUserID (userID : String)
  | deleteJoinToken (id : String)
  | userByID (id : String)
  | userByToken (token : String)
  /-- `Update` of a field that is left out -/
  | updateUser (id : String)
  /-- `Update` of `moderator_user_ids` -/
  | setModerators (id : String) (moderatorUserIDs : List String)
  /-- `ModeratedServers` of the users' repository -/
  | moderatedServers (userID : String)
  | serverByID (id : String)
  | serversByHostID (hostID : String)
  | serverIDs
  | allServers
  /-- `GetByDoc` with `official` -/
  | officialServers
  | serversByIDs (ids : List String)
  /-- `GetWithCutoff` -/
  | serversBefore (cutoff : Time)
  | createServer (server : ServerModel)
  | deleteServers (ids : List String)
  | globalBan (userID : String)
  | banForServer (hostID userID : String)
  | createPunishment (punishment : PunishmentModel)
  | updatePunishment (punishment : PunishmentModel)
  | reportByID (id : String)
  /-- `GetNewReportsByUserID` -/
  | newReportsBy (reporterID : String)
  /-- `GetOpenReportsForUser` -/
  | openReportsFor (reportedPlayerID : String)
  | createReport (report : ReportModel)
  /-- `Update` of `status` -/
  | updateReport (id : String) (status : ReportStatus)
  /-- `UpdateByFilter` of `status` -/
  | updateReports (filter : ReportFilter) (status : ReportStatus)
  deriving DecidableEq, Repr

inductive DbError
  | noDocuments
  | duplicateKey
  | unavailable
  deriving DecidableEq, Repr

abbrev Op.Result : Op → Type
  | .createJoinToken _ | .deleteJoinToken _ | .updateUser _ | .setModerators _ _
  | .createServer _ | .deleteServers _ | .createPunishment _ | .updatePunishment _
  | .createReport _ | .updateReport _ _ | .updateReports _ _ => Unit
  | .joinTokenByToken _ => Option JoinTokenModel
  | .joinTokensByUserID _ => List JoinTokenModel
  | .userByID _ | .userByToken _ => Option UserModel
  | .serverByID _ => Option ServerModel
  | .serversByHostID _ | .allServers | .officialServers | .serversByIDs _
  | .serversBefore _ => List ServerModel
  | .serverIDs | .moderatedServers _ => List String
  | .globalBan _ | .banForServer _ _ => Option PunishmentModel
  | .reportByID _ => Option ReportModel
  | .newReportsBy _ | .openReportsFor _ => List ReportModel

abbrev Ans (op : Op) : Type := Except DbError op.Result

namespace Store

/-- The pipeline of `ModeratedServers`: the users who are the user or have the
user as a moderator, each with the servers it hosts, and of these servers the
moderated ones and the user's own. -/
def moderatedServerIDs (st : Store) (userID : String) : List String :=
  let hosted := (st.users.filter fun u => u.moderatorUserIDs.contains userID || u.id == userID).flatMap
    fun u => (st.servers.filter (·.hostID == u.id)).map fun s => (u, s)
  let moderated := (hosted.filter (·.1.moderatorUserIDs.contains userID)).flatMap
    fun (u, _) => (st.servers.filter (·.hostID == u.id)).map (·.id)
  let own := (hosted.filter (·.1.id == userID)).map (·.2.id)
  (moderated ++ own).dedup

/-- A call that is answered. -/
def perform (st : Store) : (op : Op) → Store × Ans op
  | .createJoinToken token =>
      if st.joinTokens.any (·.id == token.id) then (st, .error .duplicateKey)
      else ({ st with joinTokens := st.joinTokens ++ [token] }, .ok ())
  | .joinTokenByToken token => (st, .ok (st.joinTokens.find? (·.token == token)))
  | .joinTokensByUserID userID => (st, .ok (st.joinTokens.filter (·.user == userID)))
  | .deleteJoinToken id =>
      if st.joinTokens.any (·.id == id) then
        ({ st with joinTokens := st.joinTokens.eraseP (·.id == id) }, .ok ())
      else (st, .error .noDocuments)
  | .userByID id => (st, .ok (st.users.find? (·.id == id)))
  | .userByToken token => (st, .ok (st.users.find? (·.token == token)))
  | .updateUser _ => (st, .ok ())
  | .setModerators id moderatorUserIDs =>
      ({ st with users := updateFirst (·.id == id) ({ · with moderatorUserIDs }) st.users }, .ok ())
  | .moderatedServers userID => (st, .ok (st.moderatedServerIDs userID))
  | .serverByID id => (st, .ok (st.servers.find? (·.id == id)))
  | .serversByHostID hostID => (st, .ok (st.servers.filter (·.hostID == hostID)))
  | .serverIDs => (st, .ok (st.servers.map (·.id)))
  | .allServers => (st, .ok st.servers)
  | .officialServers => (st, .ok (st.servers.filter (·.official)))
  | .serversByIDs ids => (st, .ok (st.servers.filter (ids.contains ·.id)))
  | .serversBefore cutoff => (st, .ok (st.servers.filter (·.lastUpdated < cutoff)))
  | .createServer server =>
      if st.servers.any (·.id == server.id) then (st, .error .duplicateKey)
      else ({ st with servers := st.servers ++ [server] }, .ok ())
  | .deleteServers ids => ({ st with servers := st.servers.filter (!ids.contains ·.id) }, .ok ())
  | .globalBan userID => (st, .ok (st.punishments.find? (·.isBan none userID st.now)))
  | .banForServer hostID userID =>
      (st, .ok (st.punishments.find? (·.isBan (some hostID) userID st.now)))
  | .createPunishment punishment =>
      if st.punishments.any (·.id == punishment.id) then (st, .error .duplicateKey)
      else ({ st with punishments := st.punishments ++ [punishment] }, .ok ())
  | .updatePunishment punishment =>
      ({ st with punishments :=
          updateFirst (·.id == punishment.id) (fun _ => punishment) st.punishments }, .ok ())
  | .reportByID id => (st, .ok (st.reports.find? (·.id == id)))
  | .newReportsBy reporterID =>
      (st, .ok (st.reports.filter fun r => r.reporterID == reporterID && r.status == .new))
  | .openReportsFor reportedPlayerID =>
      (st, .ok (st.reports.filter fun r =>
        r.reportedPlayerID == reportedPlayerID && r.status == .new))
  | .createReport report =>
      if st.reports.any (·.id == report.id) then (st, .error .duplicateKey)
      else ({ st with reports := st.reports ++ [report] }, .ok ())
  | .updateReport id status =>
      ({ st with reports := updateFirst (·.id == id) ({ · with status }) st.reports }, .ok ())
  | .updateReports filter status =>
      ({ st with reports := st.reports.map fun r =>
          if filter.selects r then { r with status } else r }, .ok ())

end Store

/-- How a call ends. -/
inductive Outcome
  | answered
  /-- an error, the call has had no effect -/
  | failed
  /-- an error, the call has had its effect -/
  | unacknowledged
  deriving DecidableEq, Repr

def Store.serve (st : Store) (outcome : Outcome) (op : Op) : Store × Ans op :=
  match outcome with
  | .answered => st.perform op
  | .failed => (st, .error .unavailable)
  | .unacknowledged => ((st.perform op).1, .error .unavailable)

/-- `created_ttl_idx`: join tokens live for a quarter of an hour. -/
def joinTokenTTL : Time := 15 * 60 * 1000

/-- What happens to the database besides the calls. -/
inductive Change
  /-- the TTL index removes the join tokens that have expired -/
  | expire
  /-- the users, the servers, the punishments and the time change -/
  | others (users : List UserModel) (servers : List ServerModel)
      (punishments : List PunishmentModel) (now : Time)
  deriving DecidableEq, Repr

def Store.change (st : Store) : Change → Store
  | .expire =>
      { st with joinTokens := st.joinTokens.filter fun t => st.now < t.created + joinTokenTTL }
  | .others users servers punishments now => { st with users, servers, punishments, now }

end Kyber.Api
