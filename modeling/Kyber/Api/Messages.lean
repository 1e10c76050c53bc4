import Kyber.Lib.Json

/-!
# Management messages (`messages.go`)

What the API instances tell each other about servers over the exchange. A message
names a server and carries its status or a request to it, and both are unions that
the source keeps by hand: a `tag` says which variant is encoded, the key in the
document which variant is decoded.

`UnmarshalJSON` writes into its receiver. It is only ever given a zero value, which
a definition here starts from, and what it has written when it fails is not looked
at. A pointer and a slice are an `Option`, none when they are nil.
-/

namespace Kyber.Api

open Kyber.Lib Json

structure ServerPlayerModel where
  id : String := ""
  name : String := ""
  teamID : UInt32 := 0
  deriving DecidableEq, Repr

def ServerPlayerModel.toJson (p : ServerPlayerModel) : Json :=
  .obj [("id", .str p.id), ("name", .str p.name), ("team_id", .num p.teamID.toNat)]

def ServerPlayerModel.setField (p : ServerPlayerModel) (name : String) (v : Json) :
    Except JsonError ServerPlayerModel :=
  if name = "ID" then do return { p with id := ← toStr p.id v }
  else if name = "NAME" then do return { p with name := ← toStr p.name v }
  else if name = "TEAM_ID" then do return { p with teamID := ← toUInt32 p.teamID v }
  else .ok p

def ServerPlayerModel.ofJson : Json → Except JsonError ServerPlayerModel :=
  toStruct ServerPlayerModel.setField {}

structure ConsoleMessageModel where
  message : String := ""
  isPublic : Bool := false
  deriving DecidableEq, Repr

def ConsoleMessageModel.toJson (m : ConsoleMessageModel) : Json :=
  .obj [("message", .str m.message), ("is_public", .bool m.isPublic)]

def ConsoleMessageModel.setField (m : ConsoleMessageModel) (name : String) (v : Json) :
    Except JsonError ConsoleMessageModel :=
  if name = "MESSAGE" then do return { m with message := ← toStr m.message v }
  else if name = "IS_PUBLIC" then do return { m with isPublic := ← toBool m.isPublic v }
  else .ok m

def ConsoleMessageModel.ofJson : Json → Except JsonError ConsoleMessageModel :=
  toStruct ConsoleMessageModel.setField {}

structure ServerPlayerSearchResponse where
  serverID : String := ""
  playerID : String := ""
  deriving DecidableEq, Repr

def ServerPlayerSearchResponse.toJson (r : ServerPlayerSearchResponse) : Json :=
  .obj [("server_id", .str r.serverID), ("player_id", .str r.playerID)]

def ServerPlayerSearchResponse.setField (r : ServerPlayerSearchResponse) (name : String)
    (v : Json) : Except JsonError ServerPlayerSearchResponse :=
  if name = "SERVER_ID" then do return { r with serverID := ← toStr r.serverID v }
  else if name = "PLAYER_ID" then do return { r with playerID := ← toStr r.playerID v }
  else .ok r

def ServerPlayerSearchResponse.ofJson : Json → Except JsonError ServerPlayerSearchResponse :=
  toStruct ServerPlayerSearchResponse.setField {}

/-- `*p` -/
def deref {α : Type} : Option α → Except JsonError α
  | some a => .ok a
  | none => .error .panic

/-- What an error says of the document it is about. -/
def noMatchingKey (what : String) (data : Json) : JsonError :=
  .errorf (what ++ String.ofList data.text)

/-! ## Statuses -/

inductive StatusTag
  | playerList
  | consoleMessage
  | searchServerID
  | staleServers
  deriving DecidableEq, Repr

structure ServerStatusMessage where
  /-- a pointer to a slice, and either can be nil -/
  players : Option (Option (List ServerPlayerModel)) := none
  consoleMessage : Option ConsoleMessageModel := none
  playerSearch : Option ServerPlayerSearchResponse := none
  stale : Bool := false
  tag : StatusTag := .playerList
  deriving DecidableEq, Repr

def newStatusStaleServer : ServerStatusMessage := { stale := true, tag := .staleServers }

def newStatusPlayerList (players : Option (List ServerPlayerModel)) : ServerStatusMessage :=
  { players := some players, tag := .playerList }

def newStatusConsole (msg : Option ConsoleMessageModel) : ServerStatusMessage :=
  { consoleMessage := msg, tag := .consoleMessage }

def newStatusSearchServerID (serverID playerID : String) : ServerStatusMessage :=
  { playerSearch := some { serverID, playerID }, tag := .searchServerID }

/-- A slice as the encoder writes it. -/
def sliceJson {α : Type} (write : α → Json) : Option (List α) → Json
  | none => .null
  | some as => .arr (as.map write)

def ServerStatusMessage.marshalJSON (m : ServerStatusMessage) : Except JsonError Json :=
  match m.tag with
  | .staleServers => .ok (.obj [("STALE", .bool m.stale)])
  | .playerList => do
      return .obj [("PLAYER_LIST", sliceJson ServerPlayerModel.toJson (← deref m.players))]
  | .consoleMessage => do
      return .obj [("CONSOLE_MESSAGE", (← deref m.consoleMessage).toJson)]
  | .searchServerID => do
      return .obj [("SEARCH_SERVER", (← deref m.playerSearch).toJson)]

def ServerStatusMessage.unmarshalJSON (data : Json) : Except JsonError ServerStatusMessage := do
  let raw ← toMap data
  if (get? raw "STALE").isSome then
    return { stale := true, tag := .staleServers }
  if let some v := get? raw "PLAYER_LIST" then
    return { players := ← toPtr (toSlice ServerPlayerModel.ofJson) v, tag := .playerList }
  if let some v := get? raw "CONSOLE_MESSAGE" then
    return { consoleMessage := some (← ConsoleMessageModel.ofJson v), tag := .consoleMessage }
  if let some v := get? raw "SEARCH_SERVER" then
    -- The player search is read, and then the error is returned all the same.
    let _ ← ServerPlayerSearchResponse.ofJson v
  throw (noMatchingKey "ServerStatusMessage: no matching key in " data)

/-! ## Requests -/

inductive RequestTag
  | runCommand
  | kickPlayer
  | playerList
  | searchPlayer
  deriving DecidableEq, Repr

structure KickPlayer where
  userID : String
  reason : String
  deriving DecidableEq, Repr

structure ServerRequestMessage where
  runCommand : String := ""
  kickPlayer : Option KickPlayer := none
  playerList : Bool := false
  searchPlayer : String := ""
  tag : RequestTag := .runCommand
  deriving DecidableEq, Repr

def newReqRunCommand (cmd : String) : ServerRequestMessage :=
  { runCommand := cmd, tag := .runCommand }

def newReqKickPlayer (userID reason : String) : ServerRequestMessage :=
  { kickPlayer := some { userID, reason }, tag := .kickPlayer }

def newReqSearchPlayer (id : String) : ServerRequestMessage :=
  { searchPlayer := id, tag := .runCommand }

def newReqPlayerList : ServerRequestMessage := { playerList := true, tag := .playerList }

def ServerRequestMessage.marshalJSON (m : ServerRequestMessage) : Except JsonError Json :=
  match m.tag with
  | .runCommand => .ok (.obj [("RUN_COMMAND", .str m.runCommand)])
  | .kickPlayer => do
      let kick ← deref m.kickPlayer
      return .obj [("KICK_PLAYER", .arr [.str kick.userID, .str kick.reason])]
  | .playerList => .ok (.obj [("PLAYER_LIST", .arr [])])
  | .searchPlayer => .ok (.obj [("SEARCH_PLAYER", .str m.searchPlayer)])

def ServerRequestMessage.unmarshalJSON (data : Json) : Except JsonError ServerRequestMessage := do
  let raw ← toMap data
  if let some v := get? raw "RUN_COMMAND" then
    return { runCommand := ← toStr "" v, tag := .runCommand }
  if let some v := get? raw "KICK_PLAYER" then
    let arr ← toSlice (toStr "") v
    return { kickPlayer := some { userID := ← index arr 0, reason := ← index arr 1 },
             tag := .kickPlayer }
  if (get? raw "PLAYER_LIST").isSome then
    return { playerList := true, tag := .playerList }
  if let some v := get? raw "SEARCH_PLAYER" then
    let _ ← toStr "" v
  throw (noMatchingKey "ServerRequestMessage: no matching key in " data)

/-! ## Messages -/

structure APIManagementMessage where
  serverID : String := ""
  status : Option ServerStatusMessage := none
  request : Option ServerRequestMessage := none
  deriving DecidableEq, Repr

def APIManagementMessage.marshalJSON (m : APIManagementMessage) : Except JsonError Json :=
  match m.status, m.request with
  | some status, _ => do
      return .obj [("SERVER_STATUS", .arr [.str m.serverID, ← status.marshalJSON])]
  | none, some request => do
      return .obj [("SERVER_REQUEST", .arr [.str m.serverID, ← request.marshalJSON])]
  | none, none => .error (.errorf "APIManagementMessage: no variant set")

/-- `string(raw[1 : len(raw)-1])`: the text between the first and the last
character, which is a string without its quotes but with its escapes. -/
def cutQuotes (raw : Json) : Except JsonError String :=
  if raw.text.length < 2 then .error .panic
  else .ok (String.ofList raw.text.tail.dropLast)

def APIManagementMessage.unmarshalJSON (data : Json) : Except JsonError APIManagementMessage := do
  let raw ← toMap data
  if let some v := get? raw "SERVER_STATUS" then
    let arr ← toSlice Except.ok v
    let serverID ← cutQuotes (← index arr 0)
    return { serverID, status := some (← ServerStatusMessage.unmarshalJSON (← index arr 1)) }
  if let some v := get? raw "SERVER_REQUEST" then
    let arr ← toSlice Except.ok v
    let serverID ← cutQuotes (← index arr 0)
    return { serverID, request := some (← ServerRequestMessage.unmarshalJSON (← index arr 1)) }
  throw (noMatchingKey "APIManagementMessage: no key in " data)

/-! ## The messages that are built -/

/-- A call of one of the constructors. -/
inductive Payload
  | statusStaleServer
  | statusPlayerList (players : Option (List ServerPlayerModel))
  | statusConsole (msg : Option ConsoleMessageModel)
  | statusSearchServerID (serverID playerID : String)
  | reqRunCommand (cmd : String)
  | reqKickPlayer (userID reason : String)
  | reqSearchPlayer (id : String)
  | reqPlayerList
  deriving DecidableEq, Repr

/-- The message about a server that carries what the constructor returns. -/
def Payload.message (serverID : String) : Payload → APIManagementMessage
  | .statusStaleServer => { serverID, status := some newStatusStaleServer }
  | .statusPlayerList players => { serverID, status := some (newStatusPlayerList players) }
  | .statusConsole msg => { serverID, status := some (newStatusConsole msg) }
  | .statusSearchServerID server player =>
      { serverID, status := some (newStatusSearchServerID server player) }
  | .reqRunCommand cmd => { serverID, request := some (newReqRunCommand cmd) }
  | .reqKickPlayer user reason => { serverID, request := some (newReqKickPlayer user reason) }
  | .reqSearchPlayer id => { serverID, request := some (newReqSearchPlayer id) }
  | .reqPlayerList => { serverID, request := some newReqPlayerList }

/-- A message that is decoded from what it is encoded as. -/
def APIManagementMessage.RoundTrips (m : APIManagementMessage) : Prop :=
  ∃ data, m.marshalJSON = .ok data ∧ APIManagementMessage.unmarshalJSON data = .ok m

end Kyber.Api
