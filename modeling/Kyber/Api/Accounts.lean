import Kyber.Api.Listing
import Kyber.Lib.Sha256

/-!
# Accounts (`authentication.go`, `internal/api/discord.go`)

A user logs in with a token of EA, or with a name alone on a local network. A Discord
account is linked by the callback of Discord's OAuth, a Patreon account by
`LinkPatreonAccount`; both are refreshed by `Login`, once a day, with what Patreon
and Discord answer then, and are taken away again by the user.

`Login` works on a copy of the user that it has read at the start. A refresh changes
the copy, the stored user, or both.

What the handlers take from elsewhere is an argument: the clock, generated tokens,
and the answers of EA, Patreon, Discord and the VPN check.
-/

namespace Kyber.Api

open Kyber.Lib

/-! ## Dates -/

/-- `time.Since(t)` for a date of the database, in nanoseconds. -/
def since (now : Instant) (t : Time) : Int := now - t * 1000000

/-- An hour in nanoseconds. -/
def hour : Int := 3600 * 1000000000

/-- The day-old check of `updatePatreonData`. -/
def PatreonData.due (data : PatreonData) (now : Instant) : Bool :=
  24 * hour < since now data.lastChecked

def PunishmentModel.isActive (p : PunishmentModel) (now : Instant) : Bool :=
  p.overturnedBy.isNone && p.expiresAt.all fun t => now < t * 1000000

/-- A new name, unless the user keeps the one that was set. -/
def UserDocument.rename (user : UserDocument) (name : String) : UserDocument :=
  if user.model.entitled .disableNameSync then user else { user with name }

namespace Accounts

/-- The configuration, as far as the handlers ask for it. -/
structure Config where
  /-- `patreonClient != nil` -/
  patreonEnabled : Bool
  /-- `discordHelper != nil` -/
  discordEnabled : Bool
  /-- `usersClient != nil` -/
  usersClientEnabled : Bool
  whitelistEnabled : Bool
  /-- whether the list has the name, up to case -/
  usernameWhitelist : String → Bool
  personaWhitelist : String → Bool
  /-- `Format(time.RFC1123)` -/
  formatDate : Time → String
  isProfane : String → Bool

/-! ## The answers of other services -/

/-- What `ValidateToken` finds in a token of EA. -/
structure Claims where
  pid : String
  /-- `Uif.Sta == "ACTIVE"` -/
  active : Bool
  /-- the name in `PersonaInfo()` -/
  persona : Option String
  /-- `strconv.FormatUint(claims.Psid, 10)` -/
  personaID : String
  deriving DecidableEq, Repr

/-- A membership, of which the id, the tiers and the linked Discord account. -/
structure PatreonMember where
  id : String
  currentlyEntitledTiers : List String
  discord : Option String
  deriving DecidableEq, Repr

/-- `GetMemberByID` -/
inductive PatreonAnswer
  | failed
  | member (member : Option PatreonMember)
  deriving DecidableEq, Repr

/-- `FetchUser`, of which the id -/
inductive DiscordAnswer
  | failed
  | user (id : Option String)
  deriving DecidableEq, Repr

/-- Who has the name that EA answers, and is told its own new name. -/
inductive Namesake
  | failed
  | nobody
  | user (id name : String)
  deriving DecidableEq, Repr

/-! ## `isActivePatron` -/

def validPatreonTiers : List String := ["8197122", "8196287", "8039424"]

def PatreonMember.hasValidTier (member : PatreonMember) : Bool :=
  member.currentlyEntitledTiers.any validPatreonTiers.contains

def isActivePatron (membership : Option PatreonMember) : Except Rejection PatreonMember :=
  match membership with
  | none => .error (.status .permissionDenied "No active Patreon membership found.")
  | some member =>
      if member.hasValidTier then .ok member
      else
        .error (.status .permissionDenied
          "You must be subscribed to a valid Patreon tier to access this feature.")

/-! ## Refreshes -/

/-- `updatePatreonData` and what comes after it. Its error is only logged. -/
def updatePatreonData (config : Config) (answer : PatreonAnswer) (now : Instant)
    (user : UserDocument) (k : UserDocument → Task) : Task :=
  if !config.patreonEnabled then k user
  else
    match user.patreonData with
    | none => k user
    | some data =>
        if !data.due now then k user
        else
          match answer with
          | .failed => k { user with patreonData := none }
          | .member membership =>
              match isActivePatron membership with
              | .error _ => k user
              | .ok member =>
                  let patreonData := member.discord.map fun discordID : String =>
                    { membershipID := member.id, discordID := some discordID,
                      lastChecked := dateOf now : PatreonData }
                  .call (.updateUser user.id (.patreonData patreonData)) fun _ => k user

/-- The Discord account that a refresh asks for, none if there is nothing to do. -/
def refreshedDiscordID (now : Instant) (user : UserDocument) : Option String :=
  match user.discordData with
  | some data => if since now data.lastUpdated < 24 * hour then none else some data.id
  | none => user.patreonData.bind (·.discordID)

/-- `updateDiscordData` and what comes after it. -/
def updateDiscordData (config : Config) (answer : DiscordAnswer) (now : Instant)
    (user : UserDocument) (k : Except DbError UserDocument → Task) : Task :=
  if !config.discordEnabled then k (.ok user)
  else
    match refreshedDiscordID now user with
    | none => k (.ok user)
    | some userId =>
        if userId = "" then k (.ok user)
        else
          match answer with
          | .failed => k (.ok user)
          | .user none => k (.ok { user with discordData := none })
          | .user (some id) =>
              let discordData : Option DiscordData := some { id, lastUpdated := dateOf now }
              .call (.updateUser user.id (.discordData discordData)) fun
                | .error e => k (.error e)
                | .ok () => k (.ok { user with discordData })

/-! ## `Login` -/

structure LoginRequest where
  /-- what comes of the metadata and of `ValidateToken` -/
  claims : Except Rejection Claims
  /-- `SearchUser` of the user's name -/
  name : Option String
  namesake : Namesake
  /-- `util.IsVPN` -/
  isVPN : Option Bool
  patreon : PatreonAnswer
  /-- `ea2.IsBanned` -/
  isBanned : Option Bool
  discord : DiscordAnswer
  /-- `util.GenerateToken()` for a new user -/
  token : String
  now : Instant
  deriving Repr

def nameFailure : Task :=
  reject .internal "Failed to update user information. Please contact support."

/-- `updateExistingUser` and what comes after it. -/
def updateExistingUser (req : LoginRequest) (k : Task) : Task :=
  match req.namesake with
  | .failed => nameFailure
  | .nobody => k
  | .user id name =>
      ask (.updateUser id (.seen name (some (dateOf req.now)))) .internal
        "Failed to update user information. Please contact support." fun () => k

/-- `updateUserName` and what comes after it. -/
def updateUserName (config : Config) (req : LoginRequest) (persona : String) (user : UserDocument)
    (k : UserDocument → Task) : Task :=
  if !config.usersClientEnabled then
    k (if persona ≠ user.name then user.rename persona else user)
  else if user.nameUpdated.any fun t => since req.now t < 7 * 24 * hour then k user
  else
    match req.name with
    | none => nameFailure
    | some name =>
        let nameUpdated := some (dateOf req.now)
        if name ≠ user.name then
          updateExistingUser req (k { user.rename name with nameUpdated })
        else k { user with nameUpdated }

/-- The refusal with `BanMessage()`, which reads the reason of the ban. -/
def refuseBanned (config : Config) (p : PunishmentModel) : Task :=
  match p.reason with
  | none => .ret (.error .panic)
  | some reason =>
      match p.expiresAt with
      | some t =>
          reject .permissionDenied s!"You are banned until {config.formatDate t}. Reason: {reason}"
      | none => reject .permissionDenied s!"You are permanently banned. Reason: {reason}"

/-- `Users.Create` for what EA says about the user. -/
def newUser (claims : Claims) (persona token : String) : UserDocument :=
  { id := claims.pid, token, name := persona, personaID := claims.personaID }

/-- `checkVPNBlock` for a new user, and what comes after it. -/
def checkVPNBlock (isVPN : Option Bool) (user : UserDocument) (k : UserDocument → Task) : Task :=
  match isVPN with
  | none => k user
  | some isVPN =>
      -- A failure to store it is only logged.
      .call (.updateUser user.id (.vpnBlocked isVPN)) fun _ => k { user with vpnBlocked := isVPN }

def whitelisted (config : Config) (user : UserDocument) : Bool :=
  user.model.entitled .whitelisted || user.model.isPatron || config.usernameWhitelist user.name ||
    config.personaWhitelist user.personaID

/-- The check of EA's ban, and what comes after it. -/
def checkEntitlements (req : LoginRequest) (user : UserDocument) (k : UserDocument → Task) : Task :=
  let refused := reject .permissionDenied
    "There was an issue verifying your EA account status for Battlefront 2. Please contact EA Support for more information."
  if user.lastEntitlementCheck.all fun t => 48 * hour < since req.now t then
    match req.isBanned with
    | none => reject .internal "Failed to check EA entitlements"
    | some isBanned =>
        let checked := dateOf req.now
        ask (.updateUser user.id (.entitlementCheck isBanned checked)) .internal
          "Failed to update EA entitlements" fun () =>
            if isBanned then refused
            else k { user with isBanned, lastEntitlementCheck := some checked }
  else if user.isBanned then refused
  else k user

/-- From the whitelist on. -/
def finishLogin (config : Config) (req : LoginRequest) (user : UserDocument) : Task :=
  if !whitelisted config user ∧ config.whitelistEnabled then
    reject .permissionDenied
      "You are not whitelisted for the KYBER V2 playtest. If you are a Patreon supporter, please link your account. Please contact support if you think this is an error."
  else
    checkEntitlements req user fun user =>
      updateDiscordData config req.discord req.now user fun
        | .error _ => reject .internal "Failed to update Discord data"
        | .ok user => .ret (.ok (.login user user.model.isPatron))

/-- From the check of the VPN block on. -/
def admitUser (config : Config) (req : LoginRequest) (user : UserDocument) : Task :=
  if user.vpnBlocked then
    reject .permissionDenied
      "We detected malicious activity from your connection. Please disable any VPN or proxy and try again. If you believe this is an error, please contact support."
  else updatePatreonData config req.patreon req.now user (finishLogin config req)

/-- The ban and what comes after it. -/
def unlessBanned (config : Config) (req : LoginRequest) (punishment : Option PunishmentModel)
    (k : Task) : Task :=
  match punishment with
  | none => k
  | some p => if p.isActive req.now then refuseBanned config p else k

def inactiveMessage : String :=
  "Sorry, your account is inactive. This may be due to a ban or suspension. Please contact support for assistance."

/-- `Login` outside the LAN mode. -/
def login (config : Config) (req : LoginRequest) : Task :=
  match req.claims with
  | .error rejection => .ret (.error rejection)
  | .ok claims =>
      if !claims.active then reject .permissionDenied inactiveMessage
      else
        match claims.persona with
        | none =>
            reject .permissionDenied "No persona information found. Please contact support!"
        | some persona =>
            ask (.userByID claims.pid) .internal "Failed to get user" fun found =>
              ask (.globalBan claims.pid) .internal "Failed to get punishment" fun punishment =>
                match found with
                | some user =>
                    updateUserName config req persona user fun user =>
                      ask (.updateUser user.id (.seen user.name user.nameUpdated)) .internal
                        "Failed to update user. Please contact support." fun () =>
                          unlessBanned config req punishment (admitUser config req user)
                | none =>
                    let user := newUser claims persona req.token
                    unlessBanned config req punishment
                      (ask (.createUser user) .internal
                        "Failed to create user. Please contact support." fun () =>
                          checkVPNBlock req.isVPN user (admitUser config req))

/-! ## `lanLogin` -/

/-- `unicode.IsSpace` -/
def isSpace (c : Char) : Bool :=
  ['\t', '\n', '\x0b', '\x0c', '\r', ' ', '\u0085', '\u00a0', '\u1680', '\u2028', '\u2029',
    '\u202f', '\u205f', '\u3000'].contains c || ('\u2000' ≤ c && c ≤ '\u200a')

def trimSpace (text : String) : String :=
  String.ofList ((text.toList.dropWhile isSpace).reverse.dropWhile isSpace).reverse

/-- `hex.EncodeToString` -/
def hexDigits (bytes : List UInt8) : List Char :=
  bytes.flatMap fun b => [Nat.digitChar (b.toNat / 16), Nat.digitChar (b.toNat % 16)]

/-- The id of the user with the name. -/
def lanID (username : String) : String :=
  String.ofList (hexDigits ((sha256 username.toUTF8.data.toList).take 8))

def lanLogin (text token : String) : Task :=
  let username := trimSpace text
  if username = "" then reject .invalidArgument "Username is required"
  else
    let pid := lanID username
    ask (.userByID pid) .internal "Failed to get user" fun
      | none =>
          let user : UserDocument := { id := pid, token, name := username, personaID := "0" }
          ask (.createUser user) .internal "Failed to create user" fun () =>
            .ret (.ok (.login user false))
      | some user =>
          -- A failure to store the name is ignored.
          .call (.updateUser user.id (.seen username user.nameUpdated)) fun _ =>
            .ret (.ok (.login { user with name := username } false))

/-! ## Tokens -/

/-- `ResetToken`, for the user in its context. -/
def resetToken (user : Option UserDocument) (token : String) : Task :=
  match user with
  | none => .ret (.error .panic)
  | some user =>
      ask (.updateUser user.id (.resetToken token)) .internal "Failed to reset token"
        fun () => .ret (.ok .empty)

/-! ## Patreon -/

def patreonDisabled : Task := .ret (.error (.unimplemented "Patreon features are not enabled"))

def unlinkPatreonAccount (config : Config) (user : UserDocument) (token : String) : Task :=
  if !config.patreonEnabled then patreonDisabled
  else if user.patreonData.isNone then reject .permissionDenied "No Patreon account linked"
  else
    ask (.updateUser user.id (.unlinkPatreon token)) .internal "Failed to unlink Patreon account"
      fun () => .ret (.ok .empty)

structure LinkRequest where
  /-- what comes of `ValidateToken` -/
  claims : Except Rejection Claims
  patreon : PatreonAnswer
  discord : DiscordAnswer
  now : Instant
  deriving Repr

/-- From the check of the Discord account on. -/
def linkMember (config : Config) (req : LinkRequest) (user : UserDocument) (member : PatreonMember)
    (discordID : String) : Task :=
  ask (.userByDiscordID discordID) .internal "Failed to get user" fun
    | some _ =>
        reject .permissionDenied "Your Discord account is already linked to another user."
    | none =>
        ask (.userByMembershipID member.id) .internal
          "Failed to check for existing Patreon account" fun existingUser =>
            match existingUser.filter (·.id ≠ user.id) with
            | some existing =>
                reject .permissionDenied
                  s!"Your Patreon account is already linked to {existing.name}. If this is an error, please contact support."
            | none =>
                let patreonData : PatreonData :=
                  { membershipID := member.id, discordID := some discordID,
                    lastChecked := dateOf req.now }
                -- A new value with the id alone stands for the user.
                let user : UserDocument :=
                  { id := user.id, token := "", name := "", patreonData := some patreonData }
                updateDiscordData config req.discord req.now user fun
                  | .error e => .ret (.error (.database e))
                  | .ok user =>
                      ask (.updateUser user.id (.patreonData user.patreonData)) .internal
                        "Failed to update user" fun () => .ret (.ok .empty)

def linkPatreonAccount (config : Config) (req : LinkRequest) : Task :=
  if !config.patreonEnabled then patreonDisabled
  else
    match req.claims with
    | .error rejection => .ret (.error rejection)
    | .ok claims =>
        if !claims.active then reject .permissionDenied inactiveMessage
        else
          match req.patreon with
          | .failed => reject .internal "Failed to fetch Patreon data"
          | .member none => reject .permissionDenied "Invalid membership ID"
          | .member (some patron) =>
              match isActivePatron (some patron) with
              | .error rejection => .ret (.error rejection)
              | .ok member =>
                  ask (.userByID claims.pid) .internal "Failed to get user" fun
                    | none => reject .permissionDenied "User not found"
                    | some user =>
                        match member.discord with
                        | none =>
                            reject .internal
                              "You are a Patreon member, but you have not linked your Discord account."
                        | some discordID => linkMember config req user member discordID

/-! ## Discord -/

def unlinkDiscordAccount (user : UserDocument) : Task :=
  if user.discordData.isNone then reject .permissionDenied "No Discord account linked"
  else
    ask (.updateUser user.id (.discordData none)) .internal "Failed to unlink Discord account"
      fun () => .ret (.ok .empty)

/-- `http.Error` -/
def httpError (message : String) (status : Nat) : Task := .ret (.error (.http message status))

/-- A call, and the error of the handler when the database fails. -/
def askHTTP (q : Query) (message : String) (k : q.Result → Task) : Task :=
  .attempt q (.error (.http message 500)) k

/-- `CallbackHandler` for the user whose id is kept with the state. `account` is the
id of the Discord account, or the message with which it could not be had. -/
def callbackHandler (userID : String) (account : Except String String) (now : Instant) : Task :=
  askHTTP (.userByID userID) "Internal server error" fun
    | none => httpError "User not found" 401
    | some user =>
        match account with
        | .error message => httpError message 500
        | .ok discordID =>
            askHTTP (.userByDiscordID discordID) "Internal server error" fun existingUser =>
              match existingUser.filter (·.id ≠ user.id) with
              | some existing =>
                  httpError
                    s!"This Discord account is already linked to {existing.name}. If this is an error, please contact support."
                    409
              | none =>
                  askHTTP (.updateUser user.id
                      (.discordData (some { id := discordID, lastUpdated := dateOf now })))
                    "Failed to update user" fun () => .ret (.ok .linked)

/-! ## Moderators -/

/-- The end of `AddModerator` and `RemoveModerator`. -/
def writeModerators (userID : String) (moderatorUserIDs : List String) : Task :=
  ask (.updateUser userID (.moderators moderatorUserIDs)) .internal "Failed to update user"
    fun () => .ret (.ok .empty)

def addModerator (user : UserDocument) (id : String) : Task :=
  if user.moderatorUserIDs.contains id then
    reject .alreadyExists "User is already a moderator"
  else
    ask (.userByID id) .internal "Failed to get user" fun
      | none => reject .notFound "User not found"
      | some moderator => writeModerators user.id (user.moderatorUserIDs ++ [moderator.id])

def removeModerator (user : UserDocument) (id : String) : Task :=
  match user.moderatorUserIDs.idxOf? id with
  | none => reject .notFound "User is not a moderator"
  | some moderatorIndex => writeModerators user.id (user.moderatorUserIDs.eraseIdx moderatorIndex)

/-! ## The service -/

inductive Request
  | login (req : LoginRequest)
  | lanLogin (text token : String)
  | resetToken (token : String)
  /-- `token` is the caller's, `newToken` the generated one -/
  | unlinkPatreon (token newToken : String)
  | linkPatreon (req : LinkRequest)
  | unlinkDiscord (token : String)
  | discordCallback (userID : String) (account : Except String String) (now : Instant)
  | addModerator (token id : String)
  | removeModerator (token id : String)
  | registerServer (token : String) (req : Listing.RegisterServerRequest) (gen : Generated)
      (unpublished : List String)
  deriving Repr

/-- The handlers behind the interceptor, which does not look for the user of
`ResetToken`. -/
def Request.handler (config : Config) : Request → Task
  | .login req => Accounts.login config req
  | .lanLogin text token => Accounts.lanLogin text token
  | .resetToken token => Accounts.resetToken none token
  | .unlinkPatreon token newToken =>
      identified token fun user => unlinkPatreonAccount config user newToken
  | .linkPatreon req => linkPatreonAccount config req
  | .unlinkDiscord token => identified token unlinkDiscordAccount
  | .discordCallback userID account now => callbackHandler userID account now
  | .addModerator token id => identified token fun user => Accounts.addModerator user id
  | .removeModerator token id => identified token fun user => Accounts.removeModerator user id
  | .registerServer token req gen unpublished =>
      identified token fun user =>
        Listing.registerServer config.isProfane user req gen unpublished

/-- What happens to the database besides the calls. -/
inductive Change
  /-- somebody gives or takes entitlements -/
  | entitle (userID : String) (entitlements : List UserEntitlement)
  | updateServer (id : String) (update : ServerUpdate)
  | deleteServers (ids : List String)
  /-- punishments, mod images, join tokens and the time change -/
  | others (punishments : List PunishmentModel) (modImages : List ModImageModel)
      (joinTokens : List JoinTokenModel) (now : Time)
  deriving DecidableEq, Repr

def change (db : Database) : Change → Database
  | .entitle userID entitlements =>
      { db with users := updateFirst (·.id == userID) ({ · with entitlements }) db.users }
  | .updateServer id update => (db.perform (.updateServer id update)).1
  | .deleteServers ids => (db.perform (.deleteServers ids)).1
  | .others punishments modImages joinTokens now =>
      { db with punishments, modImages, joinTokens, now }

/-- The calls are interleaved, and the database changes in between. -/
def service (config : Config) :
    Service Database Query (fun q => Except DbError q.Result) (Except Rejection Answer) Request
      Outcome Change where
  handler := Request.handler config
  serve := Database.serve
  change := change

end Accounts

end Kyber.Api
