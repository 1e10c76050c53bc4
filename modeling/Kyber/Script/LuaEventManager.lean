import Kyber.Core.Players
import Kyber.Lib.Handlers
import Kyber.Lib.Reentry

/-!
# Events for Lua plugins (`LuaEventManager.h`, `LuaEventManager.cpp`)

The module fires events, for which plugins have registered listeners. A listener may
set a flag by which it cancels the event; the module asks for the flag when the event
has been fired. There is one flag for all events. A listener may do things on which the
module fires further events before the listener goes on: the lock that `Fire` takes is
recursive. Of these, a chat message that is sent for a player is modelled
(`Server.cpp`, `LuaPlayerManager.cpp`, `SDK.cpp`); others are calls of the engine.

Lua functions are programs that make calls, with the state of the plugins' variables
among these. A function that raises an error returns early, as `lua_pcall` lets it. How
deep events are nested is bounded by a number, so that firing is a function; nothing
is answered if the number is too small. A listener that is registered for an event
while this is fired is taken up by the next firing only.

Next to the new state a function returns its activity: the `SetCancelled` calls and the
events that were fired, each with the flag after it.
-/

namespace Kyber.Script

open Kyber.Lib Kyber.Core

inductive LuaValue
  | nil
  | boolean (value : Bool)
  | integer (value : Int64)
  | string (value : String)
  | function (ref : Nat)
  | table (ref : Nat)
  /-- a pointer to a player -/
  | player (value : Option ServerPlayer)
  deriving DecidableEq, Repr

/-- `lua_isstring` and `luaL_checkstring`: a number is converted. -/
def LuaValue.string? : LuaValue → Option String
  | .string value => some value
  | .integer value => some (toString value)
  | _ => none

inductive ChatChannel
  | all
  | group
  | team
  | admin
  /-- a number without a name -/
  | other (value : Int32)
  deriving DecidableEq, Repr

/-- The cast to the enumeration. -/
def ChatChannel.ofInt32 (value : Int32) : ChatChannel :=
  if value = 0 then .all
  else if value = 1 then .group
  else if value = 2 then .team
  else if value = 3 then .admin
  else .other value

def kServerTeamAdminMarker : UInt32 := 19472

structure ChatMessage where
  channel : ChatChannel
  message : String
  player : ServerPlayer
  deriving DecidableEq, Repr

/-- `LuaEventCallback`: a Lua function, with the table that it gets as the first argument. -/
structure Listener where
  inst : Option Nat
  callback : Nat
  deriving DecidableEq, Repr

/-! ## Calls of a Lua function -/

inductive LuaCall (γ : Type)
  | getGlobals
  | setGlobals (globals : γ)
  /-- `EventManager.Listen` -/
  | listen (event callback inst : LuaValue)
  /-- `EventManager.SetCancelled` -/
  | setCancelled (isCancelled : LuaValue)
  /-- `ForceSendChatMessage` of a player -/
  | forceSendChatMessage (player channel : LuaValue)
  /-- something on which the module fires an event -/
  | engine (event : String) (arguments : List LuaValue)

/-- Whether a call raises an error. -/
inductive Outcome
  | returned
  | raised
  deriving DecidableEq, Repr

def LuaCall.Answer {γ : Type} : LuaCall γ → Type
  | .getGlobals => γ
  | .forceSendChatMessage .. => Outcome
  | _ => Unit

abbrev LuaFunction (γ : Type) := List LuaValue → Prog (LuaCall γ) LuaCall.Answer Unit

/-! ## The state -/

structure ScriptManager (γ : Type) where
  /-- the plugins' variables -/
  globals : γ
  listeners : String → List Listener := fun _ => []
  eventCancelled : Bool := false
  /-- the chat messages that the engine has got -/
  sent : List ChatMessage := []

/-- What the functions of the module do to the state, and their activity. -/
abbrev Effect (γ α : Type) := ScriptManager γ × Activity String Bool × α

/-- A function that fires an event. -/
abbrev Firing (γ : Type) := ScriptManager γ → String → List LuaValue → Option (Effect γ Unit)

namespace ScriptManager

variable {γ : Type}

def listen (s : ScriptManager γ) (event : String) (listener : Listener) : ScriptManager γ :=
  { s with
    listeners := fun e => if e = event then s.listeners e ++ [listener] else s.listeners e }

/-- `ListenFunc` -/
def listenFunc (s : ScriptManager γ) (event callback inst : LuaValue) : ScriptManager γ :=
  match event.string?, callback with
  | some event, .function ref =>
      match inst with
      | .table table => s.listen event { inst := some table, callback := ref }
      | _ => s.listen event { inst := none, callback := ref }
  | _, _ => s

def setEventCancelled (s : ScriptManager γ) (isCancelled : Bool) : ScriptManager γ :=
  { s with eventCancelled := isCancelled }

def isEventCancelled (s : ScriptManager γ) : Bool := s.eventCancelled

/-- `SetEventCancelledFunc` -/
def setEventCancelledFunc (s : ScriptManager γ) (isCancelled : LuaValue) :
    ScriptManager γ × Activity String Bool :=
  match isCancelled with
  | .boolean value => (s.setEventCancelled value, .write value .done)
  | _ => (s, .done)

end ScriptManager

/-! ## Chat messages -/

section

variable {γ : Type} (trampoline : ChatMessage → Bool) (fire : Firing γ)

/-- The trampoline of `ServerSendChatMessageHk`. -/
def ScriptManager.send (s : ScriptManager γ) (message : ChatMessage) : ScriptManager γ :=
  { s with sent := s.sent ++ [message] }

def serverSendChatMessageHk (s : ScriptManager γ) (channel : ChatChannel)
    (message : Option String) (player : Option ServerPlayer) : Option (Effect γ Bool) :=
  match message, player with
  | some message, some player =>
      let chat : ChatMessage := { channel, message, player }
      if channel = .admin ∧ player.teamId ≠ kServerTeamAdminMarker then some (s, .done, false)
      else if channel ≠ .admin then do
        let (s, fired, ()) ←
          fire s "ServerPlayer:SendMessage" [.player (some player), .string message]
        if s.isEventCancelled then return (s, fired, false)
        else return (s.send chat, fired, trampoline chat)
      else some (s.send chat, .done, trampoline chat)
  | _, _ => some (s, .done, false)

/-- `ServerPlayerForceSendChatMessage`: the message is read where the channel is. -/
def serverPlayerForceSendChatMessage (s : ScriptManager γ) (player channel : LuaValue) :
    Option (Effect γ Outcome) :=
  match player with
  | .player none => some (s, .done, .returned)
  | .player (some player) =>
      match channel with
      | .integer value => do
          let (s, fired, _) ← serverSendChatMessageHk trampoline fire s
            (ChatChannel.ofInt32 value.toInt32) channel.string? (some player)
          return (s, fired, .returned)
      | _ => some (s, .done, .returned)
  | _ => some (s, .done, .raised)

/-! ## Firing -/

def LuaCall.perform (s : ScriptManager γ) : (call : LuaCall γ) → Option (Effect γ call.Answer)
  | .getGlobals => some (s, .done, s.globals)
  | .setGlobals globals => some ({ s with globals }, .done, ())
  | .listen event callback inst => some (s.listenFunc event callback inst, .done, ())
  | .setCancelled isCancelled =>
      let (s, written) := s.setEventCancelledFunc isCancelled
      some (s, written, ())
  | .forceSendChatMessage player channel =>
      serverPlayerForceSendChatMessage trampoline fire s player channel
  | .engine event arguments => fire s event arguments

/-- `lua_pcall` -/
def pcall (s : ScriptManager γ) : Prog (LuaCall γ) LuaCall.Answer Unit → Option (Effect γ Unit)
  | .ret () => some (s, .done, ())
  | .call call k => do
      let (s, first, answer) ← call.perform trampoline fire s
      let (s, rest, ()) ← pcall s (k answer)
      return (s, first.append rest, ())

variable (functions : Nat → LuaFunction γ)

/-- The loop over the callbacks. -/
def callbacks (arguments : List LuaValue) (s : ScriptManager γ) :
    List Listener → Option (Effect γ Unit)
  | [] => some (s, .done, ())
  | listener :: listeners => do
      let inst := (listener.inst.map LuaValue.table).toList
      let (s, first, ()) ←
        pcall trampoline fire s (functions listener.callback (inst ++ arguments))
      let (s, rest, ()) ← callbacks arguments s listeners
      return (s, first.append rest, ())

end

/-- `LuaEventManager::Fire`, with a bound for the depth. -/
def fire {γ : Type} (trampoline : ChatMessage → Bool) (functions : Nat → LuaFunction γ) :
    Nat → Firing γ
  | 0, _, _, _ => none
  | depth + 1, s, event, arguments => do
      let (s, inner, ()) ← callbacks trampoline (fire trampoline functions depth) functions
        arguments (s.setEventCancelled false) (s.listeners event)
      return (s, .enter event inner s.isEventCancelled .done, ())

end Kyber.Script
