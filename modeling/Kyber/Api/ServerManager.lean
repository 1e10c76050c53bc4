import Kyber.Api.Store
import Kyber.Api.Messages
import Kyber.Lib.Maps

/-!
# The server manager (`server_manager.go`)

Game servers and the clients that manage them hold web sockets to the API. The
manager keeps the sockets of this instance in two maps, and the last player list
of every server in a third one, and passes on what comes over the exchange
(`rabbitSubscriber`) or from a game server (`HandleServerWS`).

A step of `WsState` is what happens under the manager's lock at one time, with the
handler around it up to the next such moment: a socket is registered, its read loop
gets an event, ends or cleans up, or a message is delivered. What the store answers
is an argument. A panic in one of these goroutines ends the process, so a step that
panics is not taken.
-/

namespace Kyber.Api

open Kyber.Lib Json

structure ServerPlayer where
  id : String
  name : String
  teamId : UInt32
  deriving DecidableEq, Repr

/-- Events for game servers, those that are sent. -/
inductive ServerAPIEvent
  | serverRunCommand (command : String)
  | serverKick (id reason : String)
  deriving DecidableEq, Repr

/-- `ServerManagementAPIEvent`, from game servers and to clients. The elements of a
repeated field are pointers. -/
inductive ManagementEvent
  | console (message : String) (isPublic : Option Bool)
  | players (players : List (Option ServerPlayer))
  | keepAlive
  deriving DecidableEq, Repr

/-- The sockets, in the order they are registered. -/
abbrev ConnId := Nat

structure OwnedServer where
  conn : ConnId
  players : List (Option ServerPlayer) := []
  deriving DecidableEq, Repr

structure OwnedClient where
  conn : ConnId
  isModerator : Bool
  connectionID : String
  deriving DecidableEq, Repr

structure ServerManager where
  ownedServers : Std.TreeMap String OwnedServer := {}
  ownedClients : Std.TreeMap String (Std.TreeMap String OwnedClient) := {}
  playerCache : Std.TreeMap String (List ServerPlayer) := {}

/-- What the manager writes to a socket or publishes. -/
inductive Output
  | server (conn : ConnId) (event : ServerAPIEvent)
  | client (conn : ConnId) (event : ManagementEvent)
  | close (conn : ConnId) (reason : String)
  /-- the body is nil when the message could not be marshalled -/
  | publish (routingKey : String) (body : Option Json)

namespace ServerManager

def processServerEvent (m : ServerManager) (id : String) (evt : ServerAPIEvent) : List Output :=
  match m.ownedServers[id]? with
  | some srv => [.server srv.conn evt]
  | none => []

/-- A console message that only moderators see. -/
def hiddenFrom (client : OwnedClient) : ManagementEvent → Bool
  | .console message isPublic => message ≠ "" && !client.isModerator && !isPublic.getD false
  | .players _ | .keepAlive => false

def clientsOf (m : ServerManager) (id : String) : Std.TreeMap String OwnedClient :=
  m.ownedClients.getD id {}

def processClientEvent (m : ServerManager) (id : String) (evt : ManagementEvent) : List Output :=
  (m.clientsOf id).toList.filterMap fun (_, client) =>
    if hiddenFrom client evt then none else some (.client client.conn evt)

/-- `PublishWS`, which only logs a message that cannot be marshalled. -/
def publishWS (msg : APIManagementMessage) (routingKey : String) : List Output :=
  match msg.marshalJSON with
  | .ok data => [.publish routingKey (some data)]
  | .error _ => []

/-! ## `rabbitSubscriber` -/

def playerModel (p : ServerPlayer) : ServerPlayerModel :=
  { id := p.id, name := p.name, teamID := p.teamId }

def serverPlayer (p : ServerPlayerModel) : ServerPlayer :=
  { id := p.id, name := p.name, teamId := p.teamID }

/-- The answer to a request for a server's players. -/
def answerPlayerList (m : ServerManager) (id : String) : Except JsonError (List Output) :=
  match m.ownedServers[id]? with
  | none => .ok []
  | some srv => do
      let players ← srv.players.mapM deref
      let status : ServerStatusMessage := { players := some (some (players.map playerModel)) }
      let ev : APIManagementMessage := { serverID := id, status := some status }
      return [.publish id ev.marshalJSON.toOption]

def handleRequest (m : ServerManager) (id : String) (request : ServerRequestMessage) :
    Except JsonError (List Output) :=
  if request.runCommand ≠ "" then
    .ok (m.processServerEvent id (.serverRunCommand request.runCommand))
  else
    match request.kickPlayer with
    | some kick => .ok (m.processServerEvent id (.serverKick kick.userID kick.reason))
    | none => if request.playerList then m.answerPlayerList id else .ok []

def handleStatus (m : ServerManager) (id : String) (status : ServerStatusMessage) :
    ServerManager × List Output :=
  match status.consoleMessage with
  | some console =>
      (m, m.processClientEvent id (.console console.message (some console.isPublic)))
  | none =>
      match status.players with
      | none => (m, [])
      | some slice =>
          let players := (slice.getD []).map serverPlayer
          let m' := { m with playerCache := m.playerCache.insert id players }
          (m', m'.processClientEvent id (.players (players.map some)))

/-- The branch for a stale server. -/
def dropServer (m : ServerManager) (id : String) : ServerManager × List Output :=
  let stopServer := (m.ownedServers[id]?).toList.map fun srv => .close srv.conn "Server stopped"
  let stopClients := (m.clientsOf id).toList.map fun (_, client) =>
    .close client.conn "Server stopped"
  -- The clients are deleted from the map that they are in, which stays.
  ({ ownedServers := m.ownedServers.erase id,
     ownedClients :=
       if m.ownedClients.contains id then m.ownedClients.insert id {} else m.ownedClients,
     playerCache := m.playerCache.erase id },
    stopServer ++ stopClients)

/-- A delivery: no body once the connection is lost, or a body, which need not be
JSON. -/
inductive Delivery
  | nil
  | invalid
  | doc (body : Json)

/-- The loop of `rabbitSubscriber` for one delivery. -/
def deliver (m : ServerManager) : Delivery → Except JsonError (ServerManager × List Output)
  | .nil => .error .panic
  | .invalid => .ok (m, [])
  | .doc body =>
      match APIManagementMessage.unmarshalJSON body with
      | .error .panic => .error .panic
      | .error _ => .ok (m, [])
      | .ok msg =>
          match msg.request, msg.status with
          | some request, _ => do return (m, ← m.handleRequest msg.serverID request)
          | none, some status => .ok (m.handleStatus msg.serverID status)
          | none, none => do
              -- `else if msg.Status.Stale` comes after the test of the pointer.
              let status ← deref msg.status
              return if status.stale then m.dropServer msg.serverID else (m, [])

/-! ## `HandleServerWS` -/

/-- How a handler refuses a connection. A panic is recovered by the HTTP server. -/
inductive Refusal
  | http (text : String) (status : Nat)
  | panic
  deriving DecidableEq, Repr

def internalServerError : Refusal := .http "Internal server error" 500

/-- What a lookup in the store answers, and nothing when it fails. -/
abbrev Lookup (α : Type) := Option (Option α)

structure ServerWSRequest where
  id : String
  token : String
  user : Lookup UserModel
  server : Lookup ServerModel
  /-- the upgrade to a web socket succeeds -/
  upgraded : Bool
  deriving DecidableEq, Repr

/-- The checks before the upgrade. -/
def ServerWSRequest.authorize (r : ServerWSRequest) : Except Refusal Unit :=
  if r.token = "" then .error (.http "Missing token" 400)
  else
    match r.user with
    | none => .error internalServerError
    | some none => .error (.http "Unauthorized" 401)
    | some (some user) =>
        match r.server with
        | none => .error internalServerError
        | some none => .error (.http "Server not found" 410)
        | some (some server) =>
            if user.id ≠ server.hostID then .error (.http "Forbidden" 403) else .ok ()

/-- The critical section that registers a server's socket. -/
def ownServer (m : ServerManager) (id : String) (conn : ConnId) : ServerManager × List Output :=
  let closed := (m.ownedServers[id]?).toList.map fun srv =>
    .close srv.conn "Server already owned"
  ({ m with ownedServers := (m.ownedServers.erase id).insert id { conn } }, closed)

/-- The critical section of the deferred clean-up. -/
def disownServer (m : ServerManager) (id : String) : ServerManager :=
  { m with ownedServers := m.ownedServers.erase id }

/-- An entry of a player list that is taken out. -/
def dropped : Option ServerPlayer → Bool
  | none => true
  | some p => p.id == "" || p.id == "0"

/-- The loop that takes entries out of the list it ranges over. `array` is what the
slice `players` lies in, `len` its current length; an iteration reads the array at
its index, and panics when it takes out an entry past the end of the slice. -/
def takeOut (array : List (Option ServerPlayer)) (len i : Nat) :
    Nat → Except JsonError (List (Option ServerPlayer))
  | 0 => .ok (array.take len)
  | n + 1 =>
      if dropped ((array[i]?).getD none) then
        if len < i + 1 then .error .panic
        else
          let shifted := array.take i ++ (array.take len).drop (i + 1) ++ array.drop (len - 1)
          takeOut shifted (len - 1) (i + 1) n
      else takeOut array len (i + 1) n

def sanitizePlayers (players : List (Option ServerPlayer)) :
    Except JsonError (List (Option ServerPlayer)) :=
  takeOut players players.length 0 players.length

/-- The critical section that stores the players with the socket that is owned. -/
def setPlayers (m : ServerManager) (id : String) (players : List (Option ServerPlayer)) :
    ServerManager :=
  match m.ownedServers[id]? with
  | none => m
  | some srv => { m with ownedServers := m.ownedServers.insert id { srv with players } }

/-- `processServerSocketEvent`; `stored` says that both calls to the store succeed. -/
def processServerSocketEvent (m : ServerManager) (id : String) (stored : Bool) :
    ManagementEvent → Except JsonError (ServerManager × List Output)
  | .console message isPublic =>
      if message = "" then .ok (m, [])
      else
        let status := newStatusConsole (some { message, isPublic := isPublic.getD true })
        .ok (m, publishWS { serverID := id, status := some status } id)
  | .players players => do
      let kept ← sanitizePlayers players
      let zero : ServerPlayer := { id := "", name := "", teamId := 0 }
      let status := newStatusPlayerList (some (kept.map fun p => playerModel (p.getD zero)))
      return (m.setPlayers id kept,
        if stored then publishWS { serverID := id, status := some status } id else [])
  | .keepAlive => .ok (m, [])

/-! ## `HandleClientWS` -/

structure ClientWSRequest where
  id : String
  user : Lookup UserModel
  server : Lookup ServerModel
  /-- by the token that the server has of its host -/
  host : Lookup UserModel
  upgraded : Bool
  /-- `util.GenerateToken()` -/
  connID : String
  deriving DecidableEq, Repr

/-- `CanManage` with a host that may be nil. -/
def canManage (server : ServerModel) (host : Option UserModel) (user : UserModel) :
    Except Refusal Bool :=
  match host with
  | some host => .ok (server.canManage host user)
  | none =>
      if user.entitled .globalServerModerator || user.id == server.hostID then .ok true
      else .error .panic

/-- The checks before the upgrade; the answer is whether the client moderates. -/
def authorizeClient (m : ServerManager) (r : ClientWSRequest) : Except Refusal Bool :=
  if r.id = "" then .error (.http "Missing server ID" 400)
  else
    match r.user with
    | none => .error internalServerError
    | some none => .error (.http "Unauthorized" 401)
    | some (some user) =>
        match r.server with
        | none => .error internalServerError
        | some none => .error (.http "Server not found" 410)
        | some (some server) =>
            match r.host with
            | none => .error internalServerError
            | some host => do
                let isModerator ← canManage server host user
                let isInServer := ((m.playerCache[r.id]?).getD []).any fun p => p.id == user.id
                if !isModerator ∧ !isInServer then .error (.http "Forbidden" 403)
                else return isModerator

def ownClient (m : ServerManager) (id connID : String) (conn : ConnId) (isModerator : Bool) :
    ServerManager :=
  let client : OwnedClient := { conn, isModerator, connectionID := connID }
  { m with ownedClients := m.ownedClients.insert id ((m.clientsOf id).insert connID client) }

/-- `delete` of a nil map does nothing. -/
def disownClient (m : ServerManager) (id connID : String) : ServerManager :=
  match m.ownedClients[id]? with
  | none => m
  | some clients => { m with ownedClients := m.ownedClients.insert id (clients.erase connID) }

end ServerManager

open ServerManager

/-! ## The sockets -/

inductive SocketKind
  | server
  | client (connID : String)
  deriving DecidableEq, Repr

inductive SocketPhase
  /-- the read loop runs -/
  | reading
  /-- the loop has ended, and the clean-up is still to come -/
  | leaving
  | done
  deriving DecidableEq, Repr

structure Socket where
  id : String
  kind : SocketKind
  phase : SocketPhase := .reading
  deriving DecidableEq, Repr

structure WsState where
  manager : ServerManager := {}
  sockets : List Socket := []
  sent : List Output := []
  /-- the socket that was registered last for each server; the program does not
  keep it -/
  lastServer : Std.TreeMap String ConnId := {}

inductive WsAction
  | handleServerWS (r : ServerWSRequest)
  | handleClientWS (r : ClientWSRequest)
  /-- the read loop of a game server gets an event -/
  | serverEvent (conn : ConnId) (evt : ManagementEvent) (stored : Bool)
  /-- a read loop ends: by an error (in a game server's loop also one of `UpdateByID`), by
  the deadline or because the peer has closed; a client's loop leaves no clean-up behind
  when the deadline cannot be set -/
  | stopReading (conn : ConnId) (deadlineFails : Bool)
  | cleanUp (conn : ConnId)
  | deliver (d : Delivery)

namespace WsState

def setPhase (s : WsState) (conn : ConnId) (phase : SocketPhase) : WsState :=
  { s with sockets := s.sockets.modify conn fun socket => { socket with phase } }

def run (s : WsState) (result : ServerManager × List Output) : WsState :=
  { s with manager := result.1, sent := s.sent ++ result.2 }

def acceptServer (s : WsState) (r : ServerWSRequest) : WsState :=
  let conn := s.sockets.length
  { s.run (s.manager.ownServer r.id conn) with
    sockets := s.sockets ++ [{ id := r.id, kind := .server }]
    lastServer := s.lastServer.insert r.id conn }

def acceptClient (s : WsState) (r : ClientWSRequest) (isModerator : Bool) : WsState :=
  let request := newReqPlayerList
  { s.run (s.manager.ownClient r.id r.connID s.sockets.length isModerator,
        publishWS { serverID := r.id, request := some request } r.id) with
    sockets := s.sockets ++ [{ id := r.id, kind := .client r.connID }] }

/-- Where a socket goes when its loop ends. -/
def afterReading (kind : SocketKind) (deadlineFails : Bool) : SocketPhase :=
  match kind with
  | .server => .leaving
  | .client _ => if deadlineFails then .done else .leaving

def cleanUp (m : ServerManager) (socket : Socket) : ServerManager :=
  match socket.kind with
  | .server => m.disownServer socket.id
  | .client connID => m.disownClient socket.id connID

def step (s : WsState) : WsAction → Option WsState
  | .handleServerWS r =>
      match r.authorize with
      | .error _ => some s
      | .ok () => some (if r.upgraded then s.acceptServer r else s)
  | .handleClientWS r =>
      match s.manager.authorizeClient r with
      | .error _ => some s
      | .ok isModerator => some (if r.upgraded then s.acceptClient r isModerator else s)
  | .serverEvent conn evt stored =>
      match s.sockets[conn]? with
      | some ⟨id, .server, .reading⟩ =>
          (s.manager.processServerSocketEvent id stored evt).toOption.map s.run
      | _ => none
  | .stopReading conn deadlineFails =>
      match s.sockets[conn]? with
      | some ⟨_, kind, .reading⟩ => some (s.setPhase conn (afterReading kind deadlineFails))
      | _ => none
  | .cleanUp conn =>
      match s.sockets[conn]? with
      | some socket =>
          if socket.phase = .leaving then
            some { s.setPhase conn .done with manager := cleanUp s.manager socket }
          else none
      | none => none
  | .deliver d => (s.manager.deliver d).toOption.map s.run

end WsState

end Kyber.Api
