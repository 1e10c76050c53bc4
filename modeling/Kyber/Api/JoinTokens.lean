import Kyber.Api.Rpc

/-!
# Join tokens (`client_server.go`, `RegisterServer` in `server_browser.go`)

To join a server a user asks the API for a join token (`CreateJoinToken`), gives
it to the server, and the server has the API consume it (`ConsumeJoinToken`), which
answers who the user is. A server's registration leaves a join token as well, the
one under which the server itself connects to proxies.

The handlers are programs of calls to the store. What they take from elsewhere is
an argument: the user that the call is authenticated as, a generated id, a signed
token, and for a registration what `Validate` says of the server. A registration's
mods, its map image and the published update do not bear on join tokens and are
left out.
-/

namespace Kyber.Api

open Kyber.Lib

/-- A JWT that the service has signed. -/
structure SignedToken where
  text : String
  nonempty : text ≠ ""
  deriving DecidableEq, Repr

/-! ## `CreateJoinToken` -/

structure JoinTokenRequest where
  server : String
  password : String
  deriving DecidableEq, Repr

/-- What a call generates: `util.GenerateToken()`, the signed token, none when signing
fails, and the times at which the token is stored and a server is listed. -/
structure Generated where
  id : String
  signed : Option SignedToken
  now : Time
  listed : Time := now
  deriving DecidableEq, Repr

/-- The loop over the user's tokens, and what comes after it. -/
def deleteExisting (rest : Handler) : List JoinTokenModel → Handler
  | [] => rest
  | token :: tokens =>
      query (.deleteJoinToken token.id) .internal "Failed to delete existing join tokens"
        fun () => deleteExisting rest tokens

/-- From the signing on. -/
def issueJoinToken (user : UserModel) (server : ServerModel) (gen : Generated) : Handler :=
  match gen.signed with
  | none => refuse .internal "Failed to sign join token"
  | some token =>
      let joinToken : JoinTokenModel :=
        { id := gen.id, token := token.text, user := user.id, server := server.id,
          created := gen.now }
      query (.createJoinToken joinToken) .internal "Failed to create join token"
        fun () => .ret (.ok (.joinToken token.text))

/-- From the lookup of the host on. -/
def admitToServer (user : UserModel) (req : JoinTokenRequest) (server : ServerModel)
    (gen : Generated) : Handler :=
  query (.userByID server.hostID) .internal "Failed to get server host" fun
    | none => refuse .notFound "Server host not found"
    | some host =>
        let isModerator := server.canManage host user || user.entitled .admin
        let isFull := server.playerCount ≥ server.maxPlayerCount
        if !isModerator ∧ isFull then refuse .resourceExhausted "Server is full"
        else if server.password.isSome ∧ !isModerator ∧ server.password ≠ some req.password then
          refuse .permissionDenied "Invalid password"
        else issueJoinToken user server gen

/-- The answer to a banned user. -/
def refuseBanned (punishment : PunishmentModel) : Handler :=
  match punishment.reason with
  | none => .ret (.error .panic)
  | some reason => refuse .permissionDenied ("You are banned from this server: " ++ reason)

def createJoinToken (user : UserModel) (req : JoinTokenRequest) (gen : Generated) : Handler :=
  query (.serverByID req.server) .internal "Failed to get server" fun
    | none => refuse .notFound "Server not found"
    | some server =>
        query (.banForServer server.hostID user.id) .internal "Failed to get punishment" fun
          | some punishment => refuseBanned punishment
          | none =>
              query (.joinTokensByUserID user.id) .internal "Failed to get existing join tokens"
                (deleteExisting (admitToServer user req server gen))

/-! ## `ConsumeJoinToken` -/

/-- From the deletion of the token on. -/
def admitUser (tokenModel : JoinTokenModel) (user : UserModel) : Handler :=
  query (.deleteJoinToken tokenModel.id) .internal "Failed to delete join token" fun () =>
    query (.updateUser user.id) .internal "Failed to update user" fun () =>
      .ret (.ok (.player user.id user.name))

/-- From the lookup of the server on. -/
def checkServer (tokenModel : JoinTokenModel) (user : UserModel) (server : String) : Handler :=
  query (.serverByID tokenModel.server) .internal "Failed to get server" fun
    | none =>
        query (.deleteJoinToken tokenModel.id) .internal "Failed to delete join token"
          fun () => refuse .notFound "Server not found"
    | some found =>
        if found.id ≠ server then
          refuse .permissionDenied
            "The given join token was created for use on a different server"
        else
          query (.banForServer found.hostID user.id) .internal "Failed to get punishment" fun
            | some _ => refuse .permissionDenied "User is banned from this server"
            | none => admitUser tokenModel user

def consumeJoinToken (token server : String) : Handler :=
  query (.joinTokenByToken token) .internal "Failed to get join token" fun
    | none => refuse .notFound "Join token not found"
    | some tokenModel =>
        query (.userByID tokenModel.user) .unauthenticated "Failed to get user" fun
          | none => refuse .unauthenticated "User not found"
          | some user =>
              query (.globalBan user.id) .internal "Failed to get global ban" fun
                | some _ => refuse .permissionDenied "User is globally banned"
                | none => checkServer tokenModel user server

/-! ## `RegisterServer` -/

structure RegisterServerRequest where
  name : String
  password : Option String
  maxPlayerCount : UInt32
  /-- `len(req.GetMeta()) > 0` -/
  hasMeta : Bool
  /-- what `Validate` answers for the server, none if it is valid -/
  invalid : Option Failure
  deriving DecidableEq, Repr

/-- From the validation on. -/
def publishServer (user : UserModel) (req : RegisterServerRequest) (gen : Generated)
    (proxyToken : SignedToken) : Handler :=
  match req.invalid with
  | some failure => .ret (.error failure)
  | none =>
      let server : ServerModel :=
        { id := gen.id, name := req.name, password := req.password, hostID := user.id,
          playerCount := 0, maxPlayerCount := req.maxPlayerCount,
          official := user.entitled .officialServers, lastUpdated := gen.listed,
          proxyToken := proxyToken.text }
      query (.createServer server) .internal "Failed to create server" fun () =>
        -- A failure to count the server is only logged.
        .call (.updateUser user.id) fun _ => .ret (.ok (.server gen.id proxyToken.text))

def registerServer (user : UserModel) (req : RegisterServerRequest) (gen : Generated) : Handler :=
  query (.serversByHostID user.id) .internal "Failed to get hosted servers" fun hostedServers =>
    if hostedServers.length ≥ user.getServerLimit then
      refuse .permissionDenied
        s!"You have reached your server hosting limit of {user.getServerLimit} server"
    else if req.hasMeta ∧ !user.entitled .verifiedServers then
      refuse .permissionDenied "User is not entitled to use meta data"
    else
      match gen.signed with
      | none => refuse .internal "Failed to sign join token"
      | some proxyToken =>
          -- The token of the registration is the document's id; `Token` is not set.
          let joinToken : JoinTokenModel :=
            { id := proxyToken.text, token := "", user := user.id, server := gen.id,
              created := gen.now }
          query (.createJoinToken joinToken) .internal "Failed to create join token"
            fun () => publishServer user req gen proxyToken

/-! ## The service -/

inductive Request
  | create (user : UserModel) (req : JoinTokenRequest) (gen : Generated)
  | consume (token server : String)
  | register (user : UserModel) (req : RegisterServerRequest) (gen : Generated)
  deriving DecidableEq, Repr

def Request.handler : Request → Handler
  | .create user req gen => createJoinToken user req gen
  | .consume token server => consumeJoinToken token server
  | .register user req gen => registerServer user req gen

/-- The `_id` of the document that a call inserts, if it gets to it. -/
def Request.documentID : Request → Option String
  | .create _ _ gen => some gen.id
  | .register _ _ gen => gen.signed.map SignedToken.text
  | .consume _ _ => none

/-- The API: calls are interleaved, and the database changes in between. -/
def service : Service Store Op Ans Reply Request Outcome Change where
  handler := Request.handler
  serve := Store.serve
  change := Store.change

/-! ## One call after the other -/

/-- The calls that have been answered, with their replies. -/
abbrev History := List (Request × Reply)

inductive SerialAction
  | request (r : Request)
  | change (c : Change)
  deriving DecidableEq, Repr

/-- A call from its start to its answer, or a change of the database. -/
def serialStep (s : Store × History) : SerialAction → Option (Store × History)
  | .request r =>
      let (st, reply) := r.handler.eval Store.perform s.1
      some (st, s.2 ++ [(r, reply)])
  | .change c => some (s.1.change c, s.2)

end Kyber.Api
