import Kyber.Api.Rpc

/-!
# The documents of users, servers and mod images (`pkg/models`, `pkg/repository`)

`Store` has of the documents what join tokens, punishments and moderators need. The
calls about accounts, about the settings of a server and about mod images read and
write more of them: here is the database with these fields, and the repository
methods on it. `Database.view` is what `Store` has of it.

So some handlers are there twice, with the calls to either: `RegisterServer` and the
loop of `cleanupStaleServers` in `Listing` are about what is listed, those over `Store`
about join tokens and the number of servers; `AddModerator` and `RemoveModerator` in
`Accounts` are two of the writers of a user document, those over `Store` are about the
list of moderators alone.

The update of a user is no error when there is no such user; the updates of servers
and of mod images are.
-/

namespace Kyber.Api

open Kyber.Lib

/-! ## The documents -/

/-- The data of a Patreon account, without what is only shown to moderators. -/
structure PatreonData where
  membershipID : String
  discordID : Option String
  lastChecked : Time
  deriving DecidableEq, Repr

/-- The data of a Discord account, without what is only shown to the user. -/
structure DiscordData where
  id : String
  lastUpdated : Time
  deriving DecidableEq, Repr

structure UserDocument where
  id : String
  token : String
  name : String
  moderatorUserIDs : List String := []
  entitlements : List UserEntitlement := []
  patreonData : Option PatreonData := none
  discordData : Option DiscordData := none
  /-- `EAData.PersonaID` -/
  personaID : String := ""
  /-- `EAData.LastUpdated` -/
  nameUpdated : Option Time := none
  /-- `EAData.IsBanned` -/
  isBanned : Bool := false
  /-- `EAData.LastEntitlementCheck` -/
  lastEntitlementCheck : Option Time := none
  vpnBlocked : Bool := false
  deriving DecidableEq, Repr

/-- What `Store` has of the user. -/
def UserDocument.model (user : UserDocument) : UserModel where
  id := user.id
  token := user.token
  name := user.name
  moderatorUserIDs := user.moderatorUserIDs
  entitlements := user.entitlements
  hasPatreonData := user.patreonData.isSome

/-- The Discord accounts that a user document names. -/
def UserDocument.discordIDs (user : UserDocument) : List String :=
  (user.discordData.map (·.id)).toList ++ (user.patreonData.bind (·.discordID)).toList

structure LevelSetupModel where
  map : String
  mode : String
  mapName : Option String
  modeName : Option String
  imageHash : Option String
  deriving DecidableEq, Repr

structure ModImageModModel where
  name : String
  version : String
  deriving DecidableEq, Repr

structure ServerDocument extends ServerModel where
  description : Option String
  levelSetup : LevelSetupModel
  /-- of which the name and the version -/
  explodedMods : List ModImageModModel
  hostToken : String
  deriving DecidableEq, Repr

inductive ImageHashStatus
  | pending
  | approved
  | rejected
  deriving DecidableEq, Repr

/-- A mod image; its `_id` is the hash of the picture. -/
structure ModImageModel where
  id : String
  levels : List String
  modes : List String
  mods : List ModImageModModel
  status : ImageHashStatus
  useCount : Nat
  deriving DecidableEq, Repr

/-- The filter of `SearchMapImage`. -/
def ModImageModel.shows (image : ModImageModel) (level mode : String)
    (mods : List ModImageModModel) : Bool :=
  image.levels.contains level && image.modes.contains mode && image.mods.any mods.contains

/-! ## Updates -/

/-- The updates of user documents, without what is left out of them. -/
inductive UserUpdate
  /-- by `Login` and `lanLogin`, with the name and the date of its last look-up -/
  | seen (name : String) (nameUpdated : Option Time)
  | vpnBlocked (blocked : Bool)
  | entitlementCheck (isBanned : Bool) (checked : Time)
  /-- by `ResetToken` -/
  | resetToken (token : String)
  /-- by `UnlinkPatreonAccount`, with a new token -/
  | unlinkPatreon (token : String)
  | patreonData (data : Option PatreonData)
  | discordData (data : Option DiscordData)
  | moderators (moderatorUserIDs : List String)
  /-- of a field that is left out -/
  | metrics
  deriving DecidableEq, Repr

def UserUpdate.apply : UserUpdate → UserDocument → UserDocument
  | .seen name nameUpdated, user => { user with name, nameUpdated }
  | .vpnBlocked blocked, user => { user with vpnBlocked := blocked }
  | .entitlementCheck isBanned checked, user =>
      { user with isBanned, lastEntitlementCheck := some checked }
  | .resetToken token, user => { user with token }
  | .unlinkPatreon token, user => { user with token, patreonData := none }
  | .patreonData data, user => { user with patreonData := data }
  | .discordData data, user => { user with discordData := data }
  | .moderators moderatorUserIDs, user => { user with moderatorUserIDs }
  | .metrics, user => user

/-- What `UpdateServer` writes, except for the date. -/
structure ServerSettings where
  name : String
  password : Option String
  description : Option String
  levelSetup : LevelSetupModel
  maxPlayerCount : UInt32
  deriving DecidableEq, Repr

def ServerDocument.settings (server : ServerDocument) : ServerSettings where
  name := server.name
  password := server.password
  description := server.description
  levelSetup := server.levelSetup
  maxPlayerCount := server.maxPlayerCount

/-- The updates of server documents. All of them set `last_updated`. -/
inductive ServerUpdate
  | seen (now : Time)
  | players (playerCount : UInt32) (now : Time)
  | settings (settings : ServerSettings) (now : Time)
  deriving DecidableEq, Repr

def ServerUpdate.now : ServerUpdate → Time
  | .seen now => now
  | .players _ now => now
  | .settings _ now => now

def ServerUpdate.apply : ServerUpdate → ServerDocument → ServerDocument
  | .seen now, server => { server with lastUpdated := now }
  | .players playerCount now, server => { server with playerCount, lastUpdated := now }
  | .settings s now, server =>
      { server with
        name := s.name
        password := s.password
        description := s.description
        levelSetup := s.levelSetup
        maxPlayerCount := s.maxPlayerCount
        lastUpdated := now }

inductive ImageUpdate
  /-- by `getServerMapImage` -/
  | used
  /-- by `CheckModImages` -/
  | checked (levels modes : List String)
  /-- by `UploadModImages` -/
  | uploaded (mods : List ModImageModModel) (levels modes : List String)
  deriving DecidableEq, Repr

def ImageUpdate.apply : ImageUpdate → ModImageModel → ModImageModel
  | .used, image => { image with useCount := image.useCount + 1 }
  | .checked levels modes, image => { image with levels, modes }
  | .uploaded mods levels modes, image => { image with mods, levels, modes }

/-! ## The collections -/

structure Database where
  users : List UserDocument := []
  servers : List ServerDocument := []
  modImages : List ModImageModel := []
  punishments : List PunishmentModel := []
  joinTokens : List JoinTokenModel := []
  now : Time := 0
  deriving DecidableEq, Repr

/-- What `Store` has of the database; reports are left out. -/
def Database.view (db : Database) : Store where
  joinTokens := db.joinTokens
  users := db.users.map UserDocument.model
  servers := db.servers.map ServerDocument.toServerModel
  punishments := db.punishments
  now := db.now

/-- The repository methods. -/
inductive Query
  | userByID (id : String)
  | userByToken (token : String)
  | userByDiscordID (id : String)
  /-- `GetByDoc` with `patreon_data.membership_id` -/
  | userByMembershipID (id : String)
  | createUser (user : UserDocument)
  | updateUser (id : String) (update : UserUpdate)
  | serverByID (id : String)
  | serversByHostID (hostID : String)
  /-- `GetWithCutoff` -/
  | serversBefore (cutoff : Time)
  | createServer (server : ServerDocument)
  /-- `UpdateByID` -/
  | updateServer (id : String) (update : ServerUpdate)
  /-- `DeleteMany` -/
  | deleteServers (ids : List String)
  | imageByID (id : String)
  | imagesByIDs (ids : List String)
  | searchMapImage (level mode : String) (mods : List ModImageModModel)
  | createImage (image : ModImageModel)
  | updateImage (id : String) (update : ImageUpdate)
  | createJoinToken (token : JoinTokenModel)
  | joinTokensByServerID (id : String)
  | globalBan (userID : String)
  deriving DecidableEq, Repr

abbrev Query.Result : Query → Type
  | .createUser _ | .updateUser _ _ | .createServer _ | .updateServer _ _ | .deleteServers _
  | .createImage _ | .updateImage _ _ | .createJoinToken _ => Unit
  | .userByID _ | .userByToken _ | .userByDiscordID _ | .userByMembershipID _ =>
      Option UserDocument
  | .serverByID _ => Option ServerDocument
  | .serversByHostID _ | .serversBefore _ => List ServerDocument
  | .imageByID _ | .searchMapImage _ _ _ => Option ModImageModel
  | .imagesByIDs _ => List ModImageModel
  | .joinTokensByServerID _ => List JoinTokenModel
  | .globalBan _ => Option PunishmentModel

namespace Database

/-- A document with a new key is added to a collection. -/
def insert {α : Type} (key : α → String) (a : α) (l : List α) : List α × Except DbError Unit :=
  if l.any (key · == key a) then (l, .error .duplicateKey) else (l ++ [a], .ok ())

/-- The update of a document by its key that must be there. -/
def updateByID {α : Type} (key : α → String) (id : String) (f : α → α) (l : List α) :
    List α × Except DbError Unit :=
  if l.any (key · == id) then (updateFirst (key · == id) f l, .ok ()) else (l, .error .noDocuments)

/-- A call that is answered. -/
def perform (db : Database) : (q : Query) → Database × Except DbError q.Result
  | .userByID id => (db, .ok (db.users.find? (·.id == id)))
  | .userByToken token => (db, .ok (db.users.find? (·.token == token)))
  | .userByDiscordID id => (db, .ok (db.users.find? (·.discordIDs.contains id)))
  | .userByMembershipID id =>
      (db, .ok (db.users.find? fun u => u.patreonData.map (·.membershipID) == some id))
  | .createUser user =>
      let (users, answer) := insert (·.id) user db.users
      ({ db with users }, answer)
  | .updateUser id update =>
      ({ db with users := updateFirst (·.id == id) update.apply db.users }, .ok ())
  | .serverByID id => (db, .ok (db.servers.find? (·.id == id)))
  | .serversByHostID hostID => (db, .ok (db.servers.filter (·.hostID == hostID)))
  | .serversBefore cutoff => (db, .ok (db.servers.filter (·.lastUpdated < cutoff)))
  | .createServer server =>
      let (servers, answer) := insert (·.id) server db.servers
      ({ db with servers }, answer)
  | .updateServer id update =>
      let (servers, answer) := updateByID (·.id) id update.apply db.servers
      ({ db with servers }, answer)
  | .deleteServers ids => ({ db with servers := db.servers.filter (!ids.contains ·.id) }, .ok ())
  | .imageByID id => (db, .ok (db.modImages.find? (·.id == id)))
  | .imagesByIDs ids => (db, .ok (db.modImages.filter (ids.contains ·.id)))
  | .searchMapImage level mode mods => (db, .ok (db.modImages.find? (·.shows level mode mods)))
  | .createImage image =>
      let (modImages, answer) := insert (·.id) image db.modImages
      ({ db with modImages }, answer)
  | .updateImage id update =>
      let (modImages, answer) := updateByID (·.id) id update.apply db.modImages
      ({ db with modImages }, answer)
  | .createJoinToken token =>
      let (joinTokens, answer) := insert (·.id) token db.joinTokens
      ({ db with joinTokens }, answer)
  | .joinTokensByServerID id => (db, .ok (db.joinTokens.filter (·.server == id)))
  | .globalBan userID => (db, .ok (db.punishments.find? (·.isBan none userID db.now)))

def serve (db : Database) (outcome : Outcome) (q : Query) : Database × Except DbError q.Result :=
  match outcome with
  | .answered => db.perform q
  | .failed => (db, .error .unavailable)
  | .unacknowledged => ((db.perform q).1, .error .unavailable)

end Database

/-! ## Handlers -/

/-- What a call is refused with. -/
inductive Rejection
  | status (code : Code) (message : String)
  | unimplemented (message : String)
  | http (message : String) (status : Nat)
  /-- an error of the database that is handed on -/
  | database (error : DbError)
  /-- what `Validate` answers -/
  | invalid
  | panic
  deriving DecidableEq, Repr

inductive Answer
  | empty
  /-- `RegisterServerResponse`, of which the id and the proxy token -/
  | server (id proxyToken : String)
  /-- `CheckModImagesResponse` -/
  | hashes (hashes : List String)
  /-- `LoginResponse` -/
  | login (user : UserDocument) (isPatreon : Bool)
  /-- the redirect at the end of the Discord callback -/
  | linked
  deriving DecidableEq, Repr

/-- A program of calls to the database. -/
abbrev Task := Prog Query (fun q => Except DbError q.Result) (Except Rejection Answer)

def reject (code : Code) (message : String) : Task := .ret (.error (.status code message))

/-- A call, and the status that the handler returns when the database fails. -/
def ask (q : Query) (code : Code) (message : String) (k : q.Result → Task) : Task :=
  .attempt q (.error (.status code message)) k

/-- `NewAuthInterceptor`, for a call with a token. -/
def identified (token : String) (k : UserDocument → Task) : Task :=
  ask (.userByToken token) .internal "Failed to get user by token" fun
    | none => reject .unauthenticated "Invalid token"
    | some user => k user

end Kyber.Api
