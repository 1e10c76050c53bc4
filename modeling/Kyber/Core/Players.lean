import Mathlib.Data.List.Basic
import Mathlib.Tactic.Ring

/-!
# Players of the game server (`Server.cpp`, `SDK.cpp`, `RPC/API/ServerManagement.cpp`)

A player who joins hands over a join token, for which the API answers the id and the
name of the user. The id is a text, which the callback reads as a number; the engine
creates a player with the name, and the callback looks for a player with that name
and stores the number as the online id. `SendPlayerList` writes the number as a text
again, and the API names a player by such a text when it asks for a kick.

The engine is outside. The player that it creates, if it does, is an argument, with
the place in its list. Pointers to players are told apart by the connection, and a C
string that ends early is not considered.
-/

namespace Kyber.Core

/-! ## Numbers as texts -/

/-- What `std::stoull` throws. -/
inductive StoullError
  | invalidArgument
  | outOfRange
  deriving DecidableEq, Repr

/-- `isspace` -/
def isSpace (c : Char) : Bool := c = ' ' ∨ '\t' ≤ c ∧ c ≤ '\r'

/-- `std::stoull`: blanks, a sign and the digits in front of anything else. -/
def stoull (text : String) : Except StoullError UInt64 :=
  let number (negative : Bool) (rest : List Char) : Except StoullError UInt64 :=
    let digits := rest.takeWhile Char.isDigit
    if digits.isEmpty then .error .invalidArgument
    else
      let n := Nat.ofDigitChars 10 digits 0
      if 2 ^ 64 ≤ n then .error .outOfRange
      else .ok (if negative then 0 - UInt64.ofNat n else UInt64.ofNat n)
  match text.toList.dropWhile isSpace with
  | '-' :: rest => number true rest
  | '+' :: rest => number false rest
  | rest => number false rest

/-- `std::to_string` -/
def toDecimal (n : UInt64) : String := String.ofList (Nat.toDigits 10 n.toNat)

/-! ## Players -/

structure ServerPlayer where
  /-- who plays -/
  connection : Nat
  name : String
  localPlayerId : UInt32
  /-- `m_onlineId.m_nativeData` -/
  nativeData : UInt64
  teamId : UInt32
  deriving DecidableEq, Repr

/-- The online ids that are taken for those of bots. -/
def isBotId (id : UInt64) : Bool := 133700 ≤ id && id ≤ 133799

def ServerPlayer.isAIPlayer (p : ServerPlayer) : Bool :=
  p.localPlayerId == 0xFF || isBotId p.nativeData

def ServerPlayer.setNativeData (p : ServerPlayer) (connection : Nat) (id : UInt64) :
    ServerPlayer :=
  if p.connection = connection then { p with nativeData := id } else p

/-- A player in the event of `SendPlayerList`. -/
structure ListedPlayer where
  id : String
  name : String
  teamId : UInt32
  deriving DecidableEq, Repr

def ServerPlayer.listed (p : ServerPlayer) : ListedPlayer where
  id := toDecimal p.nativeData
  name := p.name
  teamId := p.teamId

structure ServerPlayerManager where
  players : List ServerPlayer := []
  spectators : List ServerPlayer := []
  deriving DecidableEq, Repr

namespace ServerPlayerManager

def all (m : ServerPlayerManager) : List ServerPlayer := m.players ++ m.spectators

/-- The loop of `GetPlayer` and `GetSpectator`. -/
def findPlayer (wanted : ServerPlayer → Bool) (players : List ServerPlayer) : Option ServerPlayer :=
  players.find? fun p => !p.isAIPlayer && wanted p

/-- `GetPlayerOrSpectator` with a name -/
def getPlayerByName (m : ServerPlayerManager) (name : String) : Option ServerPlayer :=
  (findPlayer (·.name == name) m.players).or (findPlayer (·.name == name) m.spectators)

/-- `GetPlayerOrSpectator` with an id -/
def getPlayerById (m : ServerPlayerManager) (id : UInt64) : Option ServerPlayer :=
  (findPlayer (·.nativeData == id) m.players).or (findPlayer (·.nativeData == id) m.spectators)

/-- The online id of the player behind a pointer is set. -/
def setNativeData (m : ServerPlayerManager) (connection : Nat) (id : UInt64) :
    ServerPlayerManager where
  players := m.players.map (·.setNativeData connection id)
  spectators := m.spectators.map (·.setNativeData connection id)

end ServerPlayerManager

/-! ## Joining -/

/-- A player that the engine creates, except for the name. -/
structure NewPlayer where
  connection : Nat
  localPlayerId : UInt32
  nativeData : UInt64
  teamId : UInt32
  isSpectator : Bool
  /-- the place in the list -/
  index : Nat
  deriving DecidableEq, Repr

def NewPlayer.player (new : NewPlayer) (name : String) : ServerPlayer where
  connection := new.connection
  name := name
  localPlayerId := new.localPlayerId
  nativeData := new.nativeData
  teamId := new.teamId

def insertAt {α : Type} (l : List α) (index : Nat) (a : α) : List α :=
  l.take index ++ a :: l.drop index

namespace ServerPlayerManager

/-- The trampoline of `ServerConnectionOnCreatePlayerMessageHk`. -/
def createPlayer (m : ServerPlayerManager) (name : String) : Option NewPlayer → ServerPlayerManager
  | none => m
  | some new =>
      if new.isSpectator then
        { m with spectators := insertAt m.spectators new.index (new.player name) }
      else { m with players := insertAt m.players new.index (new.player name) }

/-- The callback of `ConsumeJoinToken` with a response. -/
def joinTokenConsumed (m : ServerPlayerManager) (id name : String) (new : Option NewPlayer) :
    Except StoullError ServerPlayerManager := do
  let userId ← stoull id
  let created := m.createPlayer name new
  match created.getPlayerByName name with
  | none => return created
  | some player => return created.setNativeData player.connection userId

/-- The players in the event of `SendPlayerList`. -/
def sendPlayerList (m : ServerPlayerManager) : List ListedPlayer :=
  (m.players.filter fun p => !p.isAIPlayer).map ServerPlayer.listed

/-- The player that a `kServerKick` event selects. -/
def kickTarget (m : ServerPlayerManager) (id : String) :
    Except StoullError (Option ServerPlayer) := do
  let playerId ← stoull id
  return m.getPlayerById playerId

end ServerPlayerManager

/-! ## The server -/

structure GameServer where
  manager : ServerPlayerManager := {}
  /-- the connections on which users have joined, with the API's ids of the users -/
  joined : List (Nat × String) := []
  /-- a callback has thrown -/
  threw : Bool := false
  deriving DecidableEq, Repr

inductive GameAction
  /-- the API answers for a join token -/
  | join (id name : String) (new : Option NewPlayer)
  | leave (connection : Nat)
  | addBot (bot : NewPlayer) (name : String)
  deriving DecidableEq, Repr

namespace GameServer

def everyone (s : GameServer) : List ServerPlayer := s.manager.all

/-- No player and no user has the connection. -/
def free (s : GameServer) (connection : Nat) : Bool :=
  s.everyone.all (·.connection != connection) && s.joined.all (·.1 != connection)

/-- A new player has a new connection, and the engine's own players are bots. -/
def step (s : GameServer) : GameAction → Option GameServer
  | .join id name new =>
      if new.all fun new => s.free new.connection then
        let joined := s.joined ++ (new.map fun new => (new.connection, id)).toList
        match s.manager.joinTokenConsumed id name new with
        | .error _ => some { s with threw := true, joined }
        | .ok manager => some { s with manager, joined }
      else none
  | .leave connection =>
      let kept : ServerPlayer → Bool := fun p => p.connection != connection
      some { s with
        manager :=
          { players := s.manager.players.filter kept
            spectators := s.manager.spectators.filter kept }
        joined := s.joined.filter (·.1 != connection) }
  | .addBot bot name =>
      if s.free bot.connection && (bot.player name).isAIPlayer then
        some { s with manager := s.manager.createPlayer name (some bot) }
      else none

end GameServer

end Kyber.Core
