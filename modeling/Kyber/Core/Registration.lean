import Kyber.Core.Players

/-!
# Registration of the game server (`Server.cpp`, `ServerManagement.cpp`)

A server registers itself with the API when it is started, and again when the management
socket is told that the server is gone. It asks the API for every player that joins, as
long as `m_onlineMode` is set. The flag says whether the server is to be online; `Start`
clears it when there is no server id after the registration.

What the API answers, and when, is left to the actions. The requests to register and the
players that are passed to the engine are recorded. Stopping the server, its settings and
its levels are left out.
-/

namespace Kyber.Core.Registration

structure ServerCreationInfo where
  level : String
  mode : String
  maxPlayers : Nat
  deriving DecidableEq, Repr

/-- `NetworkCreatePlayerMessage`, and the connection it came from. -/
structure CreatePlayerMessage where
  connection : Nat
  playerName : String
  isSpectator : Bool := false
  deriving DecidableEq, Repr

structure ConsumeJoinTokenResponse where
  id : String
  name : String
  deriving DecidableEq, Repr

/-- A message whose join token is being consumed. -/
structure JoinRequest where
  message : CreatePlayerMessage
  serverId : String
  token : String
  deriving DecidableEq, Repr

/-- A message that was passed to the engine's routine for new players, with what the API
has answered for it. -/
structure CreatedPlayer where
  message : CreatePlayerMessage
  answer : Option ConsumeJoinTokenResponse
  deriving DecidableEq, Repr

structure Server where
  /-- `g_program->m_isDedicatedServer` -/
  isDedicatedServer : Bool := false
  onlineMode : Bool := true
  serverId : String := ""
  creationInfo : Option ServerCreationInfo := none
  runningHosted : Bool := false
  /-- the server id of the management socket, when it has been started -/
  socket : Option String := none
  /-- calls of `Register` in the queue of the server thread -/
  queue : Nat := 0
  /-- requests to register that were sent -/
  requests : List ServerCreationInfo := []
  /-- calls of `ConsumeJoinToken` without an answer -/
  joining : List JoinRequest := []
  created : List CreatedPlayer := []
  deriving DecidableEq, Repr

namespace Server

def isRunning (s : Server) : Bool := s.runningHosted || s.isDedicatedServer

/-- `ServerManagementAPI::Connect` -/
def connect (s : Server) (serverId : String) : Server := { s with socket := some serverId }

/-- `Register`, with what `RegisterServer` answers if it is called. -/
def register (s : Server) (force : Bool) (response : Option String) : Server :=
  if !force && (!s.isRunning || s.creationInfo.isNone) then s
  else if !s.onlineMode then s
  else
    let s := { s with requests := s.requests ++ s.creationInfo.toList }
    match response with
    | none => s.connect "DUMMY"
    | some id => { s with onlineMode := true, serverId := id }.connect id

/-- `Start`, as far as it concerns the registration. -/
def start (s : Server) (info : ServerCreationInfo) (response : Option String) : Server :=
  let s := { s with creationInfo := some info }.register true response
  let s := if s.serverId = "" then { s with onlineMode := false } else s
  { s with runningHosted := true }

/-- The text in front of a join token. -/
def joinTokenStart : String := "KyberAuthentication:"

/-- `ServerConnectionOnCreatePlayerMessageHk` -/
def onCreatePlayerMessage (s : Server) (message : CreatePlayerMessage) : Server :=
  let trampoline := { s with created := s.created ++ [{ message, answer := none }] }
  if !s.runningHosted && !s.isDedicatedServer then trampoline
  else if !s.onlineMode then trampoline
  else if joinTokenStart.toList.isPrefixOf message.playerName.toList then
    { s with joining := s.joining ++ [{
        message
        serverId := s.serverId
        token := String.ofList (message.playerName.toList.drop joinTokenStart.length) }] }
  -- the connection is closed
  else s

/-- The callback of `ConsumeJoinToken`. An id that is no number is an exception, which
nothing catches. -/
def joinTokenAnswered (s : Server) (i : Nat) (request : JoinRequest)
    (response : Option ConsumeJoinTokenResponse) : Option Server :=
  let s := { s with joining := s.joining.eraseIdx i }
  match response with
  | none => some s
  | some answer =>
      match stoull answer.id with
      | .error _ => none
      | .ok _ =>
          some { s with created := s.created ++ [{
            message := { request.message with playerName := answer.name }
            answer := some answer }] }

end Server

inductive Action
  /-- the registration of a dedicated server at its start -/
  | initDedicated (response : Option String)
  | start (info : ServerCreationInfo) (response : Option String)
  /-- an error 410 on the management socket -/
  | gone
  /-- `Register` from the queue -/
  | queued (response : Option String)
  | create (message : CreatePlayerMessage)
  | answered (i : Nat) (response : Option ConsumeJoinTokenResponse)
  deriving DecidableEq, Repr

def step (s : Server) : Action → Option Server
  | .initDedicated response =>
      if s.isDedicatedServer then
        some (if s.onlineMode then s.register false response else s)
      else none
  | .start info response => some (s.start info response)
  | .gone => if s.socket.isSome then some { s with queue := s.queue + 1 } else none
  | .queued response =>
      if s.queue = 0 then none else some ({ s with queue := s.queue - 1 }.register false response)
  | .create message => some (s.onCreatePlayerMessage message)
  | .answered i response =>
      (s.joining[i]?).bind fun request => s.joinTokenAnswered i request response

end Kyber.Core.Registration
