import Kyber.Api.JoinTokens

/-!
# The server browser (`server_browser.go`)

`CanJoinServer` is asked before a join; it makes some of the checks of
`CreateJoinToken` again. `RegisterServer` (with the join tokens) is called by hosts
at any time, while a loop deletes the servers that have not been heard of for a
while.
-/

namespace Kyber.Api

open Kyber.Lib

structure CanJoinServerRequest where
  id : String
  password : String
  deriving DecidableEq, Repr

def canJoinServer (user : UserModel) (req : CanJoinServerRequest) : Handler :=
  query (.serverByID req.id) .internal "Failed to get server" fun
    | none => refuse .notFound "Server not found"
    | some server =>
        if server.password.isSome ∧ server.password ≠ some req.password then
          .ret (.ok (.canJoin false (some "Invalid Password")))
        else
          query (.banForServer server.hostID user.id) .internal "Failed to check ban" fun
            | some ban =>
                match ban.reason with
                | none => .ret (.error .panic)
                | some reason =>
                    .ret (.ok (.canJoin false
                      (some ("You are banned from this server: " ++ reason))))
            | none => .ret (.ok (.canJoin true none))

/-- One round of the loop in `cleanupStaleServers`, which nobody waits for. A
failure is only logged. -/
def cleanupStaleServers (now : Instant) : Handler :=
  .call (.serversBefore (dateOf (now - 40 * 1000000000))) fun
    | .error _ => .ret (.ok .empty)
    | .ok servers =>
        if servers.isEmpty then .ret (.ok .empty)
        else .call (.deleteServers (servers.map (·.id))) fun _ => .ret (.ok .empty)

/-! ## Registrations and clean-ups, interleaved -/

inductive HostingRequest
  | register (token : String) (req : RegisterServerRequest) (gen : Generated)
  | cleanup (now : Instant)
  deriving DecidableEq, Repr

def HostingRequest.handler : HostingRequest → Handler
  | .register token req gen => authenticated token (registerServer · req gen)
  | .cleanup now => cleanupStaleServers now

inductive HostingChange
  /-- the TTL index removes the join tokens that have expired -/
  | expire
  | clock (now : Time)
  deriving DecidableEq, Repr

def hostingService : Service Store Op Ans Reply HostingRequest Outcome HostingChange where
  handler := HostingRequest.handler
  serve := Store.serve
  change st
    | .expire => st.change .expire
    | .clock now => { st with now }

end Kyber.Api
