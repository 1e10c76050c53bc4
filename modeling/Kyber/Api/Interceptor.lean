import Kyber.Api.Database

/-!
# The authentication gate (`interceptor.go`, `main.go`)

The server has one chain of interceptors for unary calls and one for streams, and only
the first of them authenticates. The interceptor looks a method up in its tables, under
its full name and under the name of its service; the names are distinct, and a name is
what it names here. A handler that wants the user takes it
from its context by an assertion that is not checked; which handlers do so is a table
here, read off their bodies. `GetStats` does it for one source of statistics.

What the other interceptors do does not bear on the user and is left out, and so are the
handlers' answers.
-/

namespace Kyber.Api.Gate

/-- The services of `kyber_api`, and the reflection service. -/
inductive Service
  | authentication
  | launcher
  | clientServer
  | proxy
  | serverManagement
  | statistics
  | serverBrowser
  | voip
  | reportService
  | serverReflection
  deriving DecidableEq, Repr

/-- The calls that are registered, with those that no handler implements. -/
inductive Rpc
  -- Authentication
  | login
  | verify
  | resetToken
  | patreonLogin
  | linkPatreonAccount
  | unlinkPatreonAccount
  | unlinkDiscordAccount
  -- Launcher
  | versions
  | downloadUrl
  | patronList
  | queryHostedMods
  | uploadMod
  | getLauncherConfig
  | getPreloadedMods
  -- ClientServer
  | createJoinToken
  | consumeJoinToken
  | getBlacklist
  -- Proxy
  | eventSubscription
  | getList
  -- ServerManagement
  | unbanPlayer
  | getPunishments
  | moderatedServers
  | kickPlayer
  | banPlayer
  | setMapRotation
  | runCommand
  | addModerator
  | removeModerator
  | getModerators
  -- Statistics
  | searchUserStats
  | getStats
  | updateStats
  -- ServerBrowser
  | getServers
  | getServer
  | canJoinServer
  | validateServer
  | checkModImages
  | uploadModImages
  | registerServer
  | updateServer
  -- Voip
  | voipLogin
  | joinChannel
  -- ReportService
  | createReport
  | searchUser
  | generateEvidenceLinks
  | listReports
  | getUserReports
  | updateStatus
  | approveReports
  | rejectReport
  | getUserInfo
  -- `reflection.Register`
  | serverReflectionInfo
  deriving DecidableEq, Repr

def Rpc.service : Rpc → Service
  | .login | .verify | .resetToken | .patreonLogin | .linkPatreonAccount | .unlinkPatreonAccount
  | .unlinkDiscordAccount => .authentication
  | .versions | .downloadUrl | .patronList | .queryHostedMods | .uploadMod | .getLauncherConfig
  | .getPreloadedMods => .launcher
  | .createJoinToken | .consumeJoinToken | .getBlacklist => .clientServer
  | .eventSubscription | .getList => .proxy
  | .unbanPlayer | .getPunishments | .moderatedServers | .kickPlayer | .banPlayer | .setMapRotation
  | .runCommand | .addModerator | .removeModerator | .getModerators => .serverManagement
  | .searchUserStats | .getStats | .updateStats => .statistics
  | .getServers | .getServer | .canJoinServer | .validateServer | .checkModImages | .uploadModImages
  | .registerServer | .updateServer => .serverBrowser
  | .voipLogin | .joinChannel => .voip
  | .createReport | .searchUser | .generateEvidenceLinks | .listReports | .getUserReports
  | .updateStatus | .approveReports | .rejectReport | .getUserInfo => .reportService
  | .serverReflectionInfo => .serverReflection

/-- The calls that go through the chain for streams. -/
def Rpc.isStream : Rpc → Bool
  | .uploadMod | .eventSubscription | .serverReflectionInfo => true
  | _ => false

/-! ## The interceptor -/

/-- A key of the tables: the path of a service or the full name of a method. -/
inductive Path
  | service (service : Service)
  | method (rpc : Rpc)
  deriving DecidableEq, Repr

def optionalAuthMethods : List Path := [.method .downloadUrl]

def authMethods : List Path :=
  [.method .unlinkPatreonAccount, .method .unlinkDiscordAccount, .method .verify,
    .method .uploadModImages, .method .createJoinToken, .method .canJoinServer,
    .method .updateServer, .method .registerServer, .method .listReports, .method .getUserReports,
    .method .updateStatus, .method .approveReports, .method .rejectReport, .method .updateStats,
    .method .uploadMod, .service .serverManagement, .service .reportService, .service .voip]

/-- The method is in the table, by its full name or by its service. -/
def Rpc.isIn (rpc : Rpc) (table : List Path) : Bool :=
  table.contains (.service rpc.service) || table.contains (.method rpc)

/-- `metadata.MD` -/
abbrev Metadata := String → List String

structure Context where
  user : Option UserDocument := none

structure UserStore where
  users : List UserDocument
  /-- the database does not answer -/
  failing : Bool := false

/-- `Users.GetByToken` -/
def UserStore.getByToken (store : UserStore) (token : String) : Except Unit (Option UserDocument) :=
  if store.failing then .error () else .ok (store.users.find? (·.token == token))

inductive Served
  | refused (code : Code) (message : String)
  /-- the handler runs -/
  | handled (ctx : Context)

def authInterceptor (store : UserStore) (rpc : Rpc) (metadata : Option Metadata)
    (ctx : Context) : Served :=
  if !rpc.isIn authMethods && !rpc.isIn optionalAuthMethods then .handled ctx
  else
    match metadata with
    | none => .refused .unauthenticated "missing metadata"
    | some md =>
        match md "authorization" with
        | [] =>
            if optionalAuthMethods.contains (.method rpc) then .handled ctx
            else .refused .unauthenticated "missing token"
        | token :: _ =>
            match store.getByToken token with
            | .error _ => .refused .internal "Failed to get user by token"
            | .ok none => .refused .unauthenticated "Invalid token"
            | .ok (some user) => .handled { ctx with user := some user }

/-! ## Calls -/

inductive StatsSource
  | eaPc
  | eaXbox
  | eaPs4
  | kyber
  | personal
  deriving DecidableEq, Repr

structure Request where
  metadata : Option Metadata
  /-- the source of a `StatsRequest` -/
  source : StatsSource := .eaPc

/-- The handler asserts that its context has a user. -/
def Rpc.takesUser (source : StatsSource) : Rpc → Bool
  | .verify | .resetToken | .unlinkPatreonAccount | .unlinkDiscordAccount | .uploadMod
  | .createJoinToken | .unbanPlayer | .getPunishments | .moderatedServers | .kickPlayer | .banPlayer
  | .runCommand | .addModerator | .removeModerator | .getModerators | .updateStats | .canJoinServer
  | .uploadModImages | .registerServer | .updateServer | .voipLogin | .joinChannel | .createReport
  | .listReports | .getUserReports | .updateStatus | .approveReports | .rejectReport
  | .getUserInfo => true
  | .getStats => source == .personal
  | _ => false

/-- A call on its way to its handler. -/
def serve (store : UserStore) (rpc : Rpc) (request : Request) : Served :=
  if rpc.isStream then .handled {}
  else authInterceptor store rpc request.metadata {}

end Kyber.Api.Gate
