import Kyber.Api.Database
import Kyber.Api.JoinTokens

/-!
# The listed servers (`server_browser.go`, `HandleServerWS` in `server_manager.go`)

A server is listed by `RegisterServer`. Its host and the moderators change its
settings with `UpdateServer`, which the game server calls as well when it loads a
level; its socket says every few seconds that it is there; and a loop in every
instance of the API deletes the servers that have not been heard of for a while.

The map that is shown with a server has a picture, which players have uploaded with
their mods (`CheckModImages`, `UploadModImages`) and somebody must have approved.

What the handlers take from elsewhere is an argument: the clock, generated ids, the
word list behind `goaway.IsProfane`, the hash of a picture, and which hashes could
not be published to the queue.
-/

namespace Kyber.Api

open Kyber.Lib

/-! ## `Validate` -/

/-- The checks of the fields that can change; lengths are those of runes. -/
def ServerSettings.validates (isProfane : String → Bool) (s : ServerSettings) : Bool :=
  !isProfane s.name && !s.description.any isProfane && !s.levelSetup.mapName.any isProfane &&
    !s.levelSetup.modeName.any isProfane &&
    s.name ≠ "" && s.name.length ≤ 40 && 3 ≤ s.name.length &&
    s.password.all (·.length ≤ 64) && s.description.all (·.length ≤ 256) &&
    s.levelSetup.mapName.all (·.length ≤ 40) && s.levelSetup.modeName.all (·.length ≤ 60) &&
    1 ≤ s.maxPlayerCount && s.maxPlayerCount ≤ 64

namespace Listing

/-! ## `cleanupStaleServers` -/

/-- The dates before which a server is stale. -/
def cutoff (now : Instant) : Time := dateOf (now - 40 * 1000000000)

/-- One round of the loop, which nobody waits for. A failure is only logged. -/
def cleanupStaleServers (now : Instant) : Task :=
  .call (.serversBefore (cutoff now)) fun
    | .error _ => .ret (.ok .empty)
    | .ok servers =>
        if servers.isEmpty then .ret (.ok .empty)
        else .call (.deleteServers (servers.map (·.id))) fun _ => .ret (.ok .empty)

/-! ## `HandleServerWS` -/

/-- One round of the read loop. `players` is what is left of the player list, if the
event has one, with the time at which the count is written. -/
def serverEvent (id : String) (players : Option (UInt32 × Instant)) (now : Instant) : Task :=
  .call (.updateServer id (.seen (dateOf now))) fun
    | .error _ => .ret (.ok .empty)
    | .ok () =>
        match players with
        | none => .ret (.ok .empty)
        | some (players, later) =>
            .call (.joinTokensByServerID id) fun
              | .error _ => .ret (.ok .empty)
              | .ok existingTokens =>
                  let playerCount := players + UInt32.ofNat existingTokens.length
                  .call (.updateServer id (.players playerCount (dateOf later)))
                    fun _ => .ret (.ok .empty)

/-- The clean-up after the read loop. -/
def serverGone (id : String) (now : Instant) : Task :=
  .call (.updateServer id (.seen (dateOf now))) fun _ => .ret (.ok .empty)

/-! ## `getServerMapImage` -/

/-- `pbcommon.LevelSetup` -/
structure LevelSetup where
  map : String
  mode : String
  mapName : Option String
  modeName : Option String
  deriving DecidableEq, Repr

/-- The search for a picture, and what comes after it. -/
def getServerMapImage (levelSetup : LevelSetup) (mods : List ModImageModModel)
    (unpublished : List String) (k : Except Rejection (Option String) → Task) : Task :=
  .call (.searchMapImage levelSetup.map levelSetup.mode mods) fun
    | .error _ => k (.error (.status .internal "Failed to search for image hash"))
    | .ok none => k (.ok none)
    | .ok (some image) =>
        .call (.updateImage image.id .used) fun
          | .error _ => k (.error (.status .internal "Failed to update image hash"))
          | .ok () =>
              match image.status with
              | .rejected => k (.ok none)
              | .pending =>
                  if image.useCount + 1 ≥ 1 ∧ image.id ∈ unpublished then
                    k (.error (.status .internal "Failed to publish image hash"))
                  else k (.ok none)
              | .approved => k (.ok (some image.id))

/-! ## `UpdateServer` -/

structure UpdateServerRequest where
  id : String
  levelSetup : Option LevelSetup := none
  name : Option String := none
  password : Option String := none
  description : Option String := none
  deriving DecidableEq, Repr

/-- An optional text that is left as it is, taken away or set. -/
def replaceText (given old : Option String) : Option String :=
  match given with
  | none => old
  | some text => if text ≠ "" then some text else none

/-- The fields that the request sets, the picture apart. -/
def UpdateServerRequest.patch (req : UpdateServerRequest) (s : ServerSettings) : ServerSettings :=
  { s with
    name := if req.name.getD "" ≠ "" then req.name.getD "" else s.name
    password := replaceText req.password s.password
    description := replaceText req.description s.description
    levelSetup :=
      match req.levelSetup with
      | none => s.levelSetup
      | some levelSetup => { s.levelSetup with map := levelSetup.map, mode := levelSetup.mode } }

/-- The checks at the start. -/
def manageServer (user : UserDocument) (id : String) (k : ServerDocument → Task) : Task :=
  ask (.serverByID id) .internal "Failed to get server" fun
    | none => reject .notFound "Server not found"
    | some server =>
        ask (.userByID server.hostID) .internal "Failed to get host" fun
          | none => reject .internal "Host not found"
          | some host =>
              let isModerator := host.moderatorUserIDs.contains user.id
              if server.hostID ≠ user.id ∧ !isModerator ∧
                  !user.model.entitled .globalServerModerator then
                reject .permissionDenied "User is not the host of the server"
              else k server

/-- From the validation on. -/
def writeSettings (isProfane : String → Bool) (id : String) (s : ServerSettings) (now : Instant) :
    Task :=
  if s.validates isProfane then
    ask (.updateServer id (.settings s (dateOf now))) .internal "Failed to update server"
      fun () => .ret (.ok .empty)
  else reject .invalidArgument "Invalid server data"

def updateServer (isProfane : String → Bool) (user : UserDocument) (req : UpdateServerRequest)
    (unpublished : List String) (now : Instant) : Task :=
  manageServer user req.id fun server =>
    if req.name.getD "" ≠ "" ∧ isProfane (req.name.getD "") then
      reject .invalidArgument "Server name contains profanity"
    else
      let patched := req.patch server.settings
      match req.levelSetup with
      | none => writeSettings isProfane server.id patched now
      | some levelSetup =>
          if levelSetup.mapName.getD "" ≠ "" then
            getServerMapImage levelSetup server.explodedMods unpublished fun
              | .error rejection => .ret (.error rejection)
              | .ok imageHash =>
                  writeSettings isProfane server.id
                    { patched with levelSetup := { patched.levelSetup with imageHash } } now
          else writeSettings isProfane server.id patched now

/-! ## `RegisterServer` -/

structure RegisterServerRequest where
  name : String
  password : Option String := none
  description : Option String := none
  levelSetup : Option LevelSetup := none
  maxPlayerCount : UInt32
  /-- `len(req.GetMeta()) > 0` -/
  hasMeta : Bool := false
  explodedMods : List ModImageModModel := []
  deriving DecidableEq, Repr

/-- The level that is stored. A name that is not given is an empty text. -/
def RegisterServerRequest.level (req : RegisterServerRequest) (imageHash : Option String) :
    LevelSetupModel where
  map := (req.levelSetup.map (·.map)).getD ""
  mode := (req.levelSetup.map (·.mode)).getD ""
  mapName := some ((req.levelSetup.bind (·.mapName)).getD "")
  modeName := some ((req.levelSetup.bind (·.modeName)).getD "")
  imageHash := imageHash

/-- From the validation on. -/
def publishServer (isProfane : String → Bool) (user : UserDocument) (req : RegisterServerRequest)
    (gen : Generated) (proxyToken : SignedToken) (imageHash : Option String) : Task :=
  let server : ServerDocument :=
    { id := gen.id, name := req.name, password := req.password, hostID := user.id,
      playerCount := 0, maxPlayerCount := req.maxPlayerCount,
      official := user.model.entitled .officialServers, lastUpdated := gen.listed,
      proxyToken := proxyToken.text, description := req.description,
      levelSetup := req.level imageHash, explodedMods := req.explodedMods,
      hostToken := user.token }
  if server.settings.validates isProfane then
    ask (.createServer server) .internal "Failed to create server" fun () =>
      -- A failure to count the server is only logged.
      .call (.updateUser user.id .metrics) fun _ => .ret (.ok (.server gen.id proxyToken.text))
  else .ret (.error .invalid)

/-- From the signing on. -/
def signServer (isProfane : String → Bool) (user : UserDocument) (req : RegisterServerRequest)
    (gen : Generated) (imageHash : Option String) : Task :=
  match gen.signed with
  | none => reject .internal "Failed to sign join token"
  | some proxyToken =>
      let joinToken : JoinTokenModel :=
        { id := proxyToken.text, token := "", user := user.id, server := gen.id,
          created := gen.now }
      ask (.createJoinToken joinToken) .internal "Failed to create join token"
        fun () => publishServer isProfane user req gen proxyToken imageHash

def registerServer (isProfane : String → Bool) (user : UserDocument) (req : RegisterServerRequest)
    (gen : Generated) (unpublished : List String) : Task :=
  ask (.serversByHostID user.id) .internal "Failed to get hosted servers" fun hostedServers =>
    if hostedServers.length ≥ user.model.getServerLimit then
      reject .permissionDenied
        s!"You have reached your server hosting limit of {user.model.getServerLimit} server"
    else if req.hasMeta ∧ !user.model.entitled .verifiedServers then
      reject .permissionDenied "User is not entitled to use meta data"
    else
      match req.levelSetup with
      | none => signServer isProfane user req gen none
      | some levelSetup =>
          if levelSetup.mapName.getD "" ≠ "" then
            getServerMapImage levelSetup req.explodedMods unpublished fun
              -- The error is overwritten by the next one.
              | .error _ => signServer isProfane user req gen none
              | .ok imageHash => signServer isProfane user req gen imageHash
          else signServer isProfane user req gen none

/-! ## `CheckModImages` and `UploadModImages` -/

/-- What is not in the list yet goes to its end. -/
def addNew {α : Type} [BEq α] (l : List α) (a : α) : List α :=
  if l.contains a then l else l ++ [a]

structure CheckModImageItem where
  hash : String
  level : String
  mode : String
  deriving DecidableEq, Repr

/-- The loop over the pictures that are there. The first item with the hash of one
is taken for it. -/
def checkImages (items : List CheckModImageItem) (existing : List String) :
    List ModImageModel → Task
  | [] => .ret (.ok (.hashes existing))
  | image :: images =>
      match items.find? (·.hash == image.id) with
      | none => checkImages items existing images
      | some item =>
          if image.levels.contains item.level ∧ image.modes.contains item.mode then
            checkImages items (existing ++ [image.id]) images
          else
            ask (.updateImage image.id
                (.checked (addNew image.levels item.level) (addNew image.modes item.mode)))
              .internal "Failed to update image hash"
              fun () => checkImages items (existing ++ [image.id]) images

def checkModImages (items : List CheckModImageItem) : Task :=
  if items.isEmpty then reject .invalidArgument "No images provided"
  else
    ask (.imagesByIDs (items.map (·.hash))) .internal "Failed to get image hashes"
      (checkImages items [])

structure ModImage where
  image : List UInt8
  level : String
  mode : String
  mod : ModImageModModel
  deriving DecidableEq, Repr

def ModImage.document (img : ModImage) (hash : String) (status : ImageHashStatus) :
    ModImageModel where
  id := hash
  levels := [img.level]
  modes := [img.mode]
  mods := [img.mod]
  status := status
  useCount := 1

/-- The loop over the pictures. -/
def uploadImages (imageHash : List UInt8 → String) (user : UserDocument)
    (unpublished : List String) : List ModImage → Task
  | [] => .ret (.ok .empty)
  | img :: images =>
      if img.image.isEmpty then reject .invalidArgument "Image data is empty"
      else if img.level = "" then reject .invalidArgument "Image name is empty"
      else
        let hash := imageHash img.image
        ask (.imageByID hash) .internal "Failed to get image hash" fun
          | some existing =>
              ask (.updateImage existing.id
                  (.uploaded (addNew existing.mods img.mod) (addNew existing.levels img.level)
                    (addNew existing.modes img.mode)))
                .internal "Failed to update existing image hash"
                fun () => uploadImages imageHash user unpublished images
          | none =>
              let approves := user.model.entitled .autoApproveModImages
              if approves ∧ hash ∈ unpublished then
                reject .internal "Failed to publish image hash"
              else
                ask (.createImage (img.document hash (if approves then .approved else .pending)))
                  .internal "Failed to create image hash"
                  fun () => uploadImages imageHash user unpublished images

def uploadModImages (imageHash : List UInt8 → String) (user : UserDocument)
    (images : List ModImage) (unpublished : List String) : Task :=
  if images.length ≥ 30 then reject .invalidArgument "Too many images provided"
  else uploadImages imageHash user unpublished images

/-! ## The service -/

/-- The libraries behind the handlers. -/
structure Libraries where
  isProfane : String → Bool
  imageHash : List UInt8 → String

inductive Request
  | register (user : UserDocument) (req : RegisterServerRequest) (gen : Generated)
      (unpublished : List String)
  | update (user : UserDocument) (req : UpdateServerRequest) (unpublished : List String)
      (now : Instant)
  | serverEvent (id : String) (players : Option (UInt32 × Instant)) (now : Instant)
  | serverGone (id : String) (now : Instant)
  | cleanup (now : Instant)
  | check (items : List CheckModImageItem)
  | upload (user : UserDocument) (images : List ModImage) (unpublished : List String)
  deriving DecidableEq, Repr

def Request.handler (lib : Libraries) : Request → Task
  | .register user req gen unpublished => registerServer lib.isProfane user req gen unpublished
  | .update user req unpublished now => updateServer lib.isProfane user req unpublished now
  | .serverEvent id players now => Listing.serverEvent id players now
  | .serverGone id now => Listing.serverGone id now
  | .cleanup now => cleanupStaleServers now
  | .check items => checkModImages items
  | .upload user images unpublished => uploadModImages lib.imageHash user images unpublished

/-- What happens to the database besides the calls. -/
inductive Change
  /-- somebody reviews a picture -/
  | review (id : String) (status : ImageHashStatus)
  /-- the users, the join tokens and the time change -/
  | others (users : List UserDocument) (joinTokens : List JoinTokenModel) (now : Time)
  deriving DecidableEq, Repr

def change (db : Database) : Change → Database
  | .review id status =>
      { db with modImages := updateFirst (·.id == id) ({ · with status }) db.modImages }
  | .others users joinTokens now => { db with users, joinTokens, now }

/-- The calls are interleaved, and the database changes in between. -/
def service (lib : Libraries) :
    Service Database Query (fun q => Except DbError q.Result) (Except Rejection Answer) Request
      Outcome Change where
  handler := Request.handler lib
  serve := Database.serve
  change := change

end Listing

end Kyber.Api
