import Kyber.Api.ServerManager

/-!
# The instances of the API (`server_manager.go`, `server_management.go`)

Every instance has a server manager, and one exchange joins them: what an instance
publishes goes to the queue of each, its own included, and its subscriber takes the
messages from there one at a time. Sockets are not alone in publishing. `RunCommand`
and other calls of the API have the manager publish messages too, some of them
several in a row, between which anything else can happen.

The exchange is a queue for each instance, bound to every routing key (`#`), in which
the messages stay in the order in which they come. What a call finds in the store is
an argument.
-/

namespace Kyber.Api

open Kyber.Lib Json ServerManager

/-! ## Calls -/

structure RunCommandRequest where
  id : String
  command : String
  user : UserModel
  server : Lookup ServerModel
  /-- by the host's id that the server has -/
  host : Lookup UserModel
  deriving DecidableEq, Repr

/-- `isModerator` in front of `RunCommand`, with the server that it returns. -/
def RunCommandRequest.moderated (r : RunCommandRequest) : Option ServerModel :=
  match r.server, r.host with
  | some (some server), some (some host) =>
      if server.canManage host r.user then some server else none
  | _, _ => none

/-- The text that `RunCommand` leaves on the console. -/
def RunCommandRequest.consoleMessage (r : RunCommandRequest) : String :=
  "[MODERATOR] " ++ r.user.name ++ " (" ++ r.user.id ++ ") ran command: " ++ r.command

/-- `PublishConsoleMessage` -/
def consoleMessageOf (serverID message : String) (isPublic : Bool) : APIManagementMessage :=
  { serverID, status := some (newStatusConsole (some { message, isPublic })) }

/-- The manager's `RunCommand` -/
def runCommandOf (serverID command : String) : APIManagementMessage :=
  { serverID, request := some (newReqRunCommand command) }

/-- The manager's `KickPlayer` -/
def kickPlayerOf (serverID userID reason : String) : APIManagementMessage :=
  { serverID, request := some (newReqKickPlayer userID reason) }

inductive Call
  | runCommand (r : RunCommandRequest)
  /-- the end of `KickPlayer` and of `BanPlayer` -/
  | kickPlayer (serverID userID reason : String)
  | kickUserGlobally (serverIDs : List String) (userID : String)
  /-- one round of `cleanupStaleServers` -/
  | cleanupStaleServers (serverIDs : List String)
  deriving DecidableEq, Repr

/-- What a call publishes, one message after the other, each with the server's id as
its routing key. -/
def Call.messages : Call → List APIManagementMessage
  | .runCommand r =>
      match r.moderated with
      | none => []
      | some server =>
          [runCommandOf server.id r.command, consoleMessageOf server.id r.consoleMessage false]
  | .kickPlayer serverID userID reason => [kickPlayerOf serverID userID reason]
  | .kickUserGlobally serverIDs userID =>
      serverIDs.map (kickPlayerOf · userID "You have been kicked from the server")
  | .cleanupStaleServers serverIDs =>
      serverIDs.map fun serverID => { serverID, status := some newStatusStaleServer }

/-! ## Instances -/

structure Instance where
  ws : WsState := {}
  /-- what the subscriber has yet to take -/
  queue : List (Option Json) := []

structure ApiState where
  instances : List Instance
  /-- what the calls have yet to publish -/
  calls : List (List APIManagementMessage) := []

inductive ApiAction
  /-- a step at the sockets of an instance, no delivery -/
  | socket (i : Nat) (a : WsAction)
  /-- the subscriber of an instance takes the next message -/
  | receive (i : Nat)
  | call (c : Call)
  /-- a call publishes its next message -/
  | publishNext (k : Nat)

/-- The bodies of what an instance publishes. -/
def published (out : List Output) : List (Option Json) :=
  out.filterMap fun
    | .publish _ body => some body
    | _ => none

def delivery : Option Json → Delivery
  | none => .nil
  | some body => .doc body

namespace ApiState

def publish (s : ApiState) (bodies : List (Option Json)) : ApiState :=
  { s with instances := s.instances.map fun inst => { inst with queue := inst.queue ++ bodies } }

/-- Instance `i` takes a step from `inst`. -/
def stepInstance (s : ApiState) (i : Nat) (inst : Instance) (a : WsAction) : Option ApiState :=
  (inst.ws.step a).map fun ws =>
    { s with instances := s.instances.set i { inst with ws } }.publish
      (published (ws.sent.drop inst.ws.sent.length))

def step (s : ApiState) : ApiAction → Option ApiState
  | .socket _ (.deliver _) => none
  | .socket i a => (s.instances[i]?).bind fun inst => s.stepInstance i inst a
  | .receive i =>
      match s.instances[i]? with
      | some ⟨ws, d :: rest⟩ => s.stepInstance i ⟨ws, rest⟩ (.deliver (delivery d))
      | _ => none
  | .call c => some { s with calls := s.calls ++ [c.messages] }
  | .publishNext k =>
      match s.calls[k]? with
      | some (msg :: rest) =>
          some ({ s with calls := s.calls.set k rest }.publish
            (published (publishWS msg msg.serverID)))
      | _ => none

/-- `n` instances with nothing connected. -/
def start (n : Nat) : ApiState := { instances := List.replicate n {} }

end ApiState

end Kyber.Api
