import Kyber.Script.LuaEventManager
import Kyber.Lib.Vectors

/-!
# The loop over listeners (`LuaEventManager.h`, `LuaEventManager.cpp`)

`Fire` goes through a vector of callbacks with iterators that it takes at the start, and
a callback may append to this vector while it runs. Here the vectors have buffers, and
the loops that are running are frames on a stack, the last one on top: a step is a call
of the Lua function that runs, or a step of the loop around it. So there is no bound on
how deep events are nested, and a Lua function may run for ever.

A callback lies in its vector with all that it has captured. It is read when it is
called, and again when its Lua function has returned, for the arguments are removed
from its Lua state then. What happens when the element has been moved is not defined;
nothing comes after it here.

Lua code runs outside of the loops when a plugin is loaded or a command is given. All of
it runs under one lock, so that nothing else is fired meanwhile.
-/

namespace Kyber.Script

open Kyber.Lib Kyber.Core

abbrev LuaProgram (γ : Type) := Prog (LuaCall γ) LuaCall.Answer Unit

/-- The loop of a call of `Fire`. -/
structure Loop where
  event : String
  arguments : List LuaValue
  /-- `__begin` and `__end` of the range -/
  cursor : Iterator
  stop : Nat
  /-- the message that waits for the event, and is sent if it is not cancelled -/
  chat : Option ChatMessage
  /-- the listeners at the start, and those that have been called -/
  registered : List Listener
  invoked : List Listener
  deriving DecidableEq, Repr

inductive Frame (γ : Type)
  | script (running : LuaProgram γ)
  | firing (loop : Loop) (running : Option (LuaProgram γ))

namespace Frame

variable {γ : Type}

def running? : Frame γ → Option (LuaProgram γ)
  | .script running => some running
  | .firing _ running => running

/-- The event that is fired. -/
def event? : Frame γ → Option String
  | .script _ => none
  | .firing loop _ => some loop.event

def goOn (program : LuaProgram γ) : Frame γ → Frame γ
  | .script _ => .script program
  | .firing loop _ => .firing loop (some program)

end Frame

structure Machine (γ : Type) where
  globals : γ
  listeners : String → Vec Listener := fun _ => .empty
  eventCancelled : Bool := false
  /-- the chat messages that the engine has got -/
  sent : List ChatMessage := []
  frames : List (Frame γ) := []
  /-- the loops that have ended -/
  ended : List Loop := []
  /-- an element has been used that had been moved -/
  dangling : Bool := false

namespace Machine

variable {γ : Type}

/-- The events that are fired. -/
def firing (m : Machine γ) : List String := m.frames.filterMap (·.event?)

/-- `LuaEventManager::Listen` -/
def listen (grow : Nat → Nat) (m : Machine γ) (event : String) (listener : Listener) : Machine γ :=
  { m with
    listeners := fun e =>
      if e = event then (m.listeners e).pushBack grow listener else m.listeners e }

/-- What `ListenFunc` registers, if its arguments are right. -/
def registration (event callback inst : LuaValue) : Option (String × Listener) :=
  match event.string?, callback with
  | some event, .function ref =>
      match inst with
      | .table table => some (event, { inst := some table, callback := ref })
      | _ => some (event, { inst := none, callback := ref })
  | _, _ => none

/-- `ListenFunc` -/
def listenFunc (grow : Nat → Nat) (m : Machine γ) (event callback inst : LuaValue) : Machine γ :=
  match registration event callback inst with
  | some (event, listener) => m.listen grow event listener
  | none => m

/-- `SetEventCancelledFunc` -/
def setEventCancelledFunc (m : Machine γ) (isCancelled : LuaValue) : Machine γ :=
  match isCancelled with
  | .boolean value => { m with eventCancelled := value }
  | _ => m

/-- The start of `Fire`. -/
def startFiring (m : Machine γ) (event : String) (arguments : List LuaValue)
    (chat : Option ChatMessage) : Machine γ :=
  let vector := m.listeners event
  let loop : Loop :=
    { event, arguments, cursor := vector.start, stop := vector.elements.length, chat,
      registered := vector.elements, invoked := [] }
  { m with eventCancelled := false, frames := .firing loop none :: m.frames }

/-- The end of `Fire`, and of `ServerSendChatMessageHk` behind it. -/
def endFiring (m : Machine γ) (loop : Loop) (frames : List (Frame γ)) : Machine γ :=
  { m with
    frames
    ended := m.ended ++ [loop]
    sent := if m.eventCancelled then m.sent else m.sent ++ loop.chat.toList }

/-- `ServerPlayerForceSendChatMessage` and `ServerSendChatMessageHk`, up to the event. -/
def forceSendChatMessage (m : Machine γ) (player channel : LuaValue) : Machine γ :=
  match player, channel with
  | .player (some player), .integer value =>
      let channel := ChatChannel.ofInt32 value.toInt32
      let chat : ChatMessage := { channel, message := toString value, player }
      if channel = .admin ∧ player.teamId ≠ kServerTeamAdminMarker then m
      else if channel ≠ .admin then
        m.startFiring "ServerPlayer:SendMessage" [.player (some player), .string chat.message] chat
      else { m with sent := m.sent ++ [chat] }
  | _, _ => m

def forceSendOutcome (player : LuaValue) : Outcome :=
  match player with
  | .player _ => .returned
  | _ => .raised

/-- A call of the function that runs on top. It goes on when the events that are fired in
the call have ended. -/
def perform (grow : Nat → Nat) (m : Machine γ) (goOn : LuaProgram γ → List (Frame γ)) :
    (call : LuaCall γ) → (call.Answer → LuaProgram γ) → Machine γ
  | .getGlobals, k => { m with frames := goOn (k m.globals) }
  | .setGlobals globals, k => { m with globals, frames := goOn (k ()) }
  | .listen event callback inst, k =>
      { m with frames := goOn (k ()) }.listenFunc grow event callback inst
  | .setCancelled isCancelled, k =>
      { m with frames := goOn (k ()) }.setEventCancelledFunc isCancelled
  | .forceSendChatMessage player channel, k =>
      { m with frames := goOn (k (forceSendOutcome player)) }.forceSendChatMessage player channel
  | .engine event arguments, k =>
      { m with frames := goOn (k ()) }.startFiring event arguments none

/-- The loop when the Lua function of a callback has returned. -/
def afterCallback (m : Machine γ) (loop : Loop) (frames : List (Frame γ)) : Machine γ :=
  match (m.listeners loop.event).get? loop.cursor with
  | none => { m with dangling := true }
  | some _ => { m with frames := .firing { loop with cursor := loop.cursor.next } none :: frames }

/-- The loop when no callback runs. -/
def nextCallback (functions : Nat → LuaFunction γ) (m : Machine γ) (loop : Loop)
    (frames : List (Frame γ)) : Machine γ :=
  if loop.cursor.index = loop.stop then m.endFiring loop frames
  else
    match (m.listeners loop.event).get? loop.cursor with
    | none => { m with dangling := true }
    | some listener =>
        let inst := (listener.inst.map LuaValue.table).toList
        let loop := { loop with invoked := loop.invoked ++ [listener] }
        let program := functions listener.callback (inst ++ loop.arguments)
        { m with frames := .firing loop (some program) :: frames }

/-- A step of what is on top. -/
def run (grow : Nat → Nat) (functions : Nat → LuaFunction γ) (m : Machine γ) :
    Option (Machine γ) :=
  match m.frames with
  | [] => none
  | .script (.ret ()) :: frames => some { m with frames }
  | .script (.call call k) :: frames =>
      some (m.perform grow (fun program => .script program :: frames) call k)
  | .firing loop none :: frames => some (m.nextCallback functions loop frames)
  | .firing loop (some (.ret ())) :: frames => some (m.afterCallback loop frames)
  | .firing loop (some (.call call k)) :: frames =>
      some (m.perform grow (fun program => .firing loop (some program) :: frames) call k)

/-- The registration that the next step makes. -/
def registers (m : Machine γ) : Option (String × Listener) :=
  match m.frames.head?.bind (·.running?) with
  | some (.call (.listen event callback inst) _) => registration event callback inst
  | _ => none

end Machine

inductive ScriptAction (γ : Type)
  | run
  /-- Lua code outside of the loops -/
  | script (program : LuaProgram γ)
  /-- the module fires an event -/
  | fire (event : String) (arguments : List LuaValue)
  | reset

/-- A step. Only what is on top goes on, and there is nothing after undefined behaviour. -/
def Machine.step {γ : Type} (grow : Nat → Nat) (functions : Nat → LuaFunction γ) (m : Machine γ)
    (a : ScriptAction γ) : Option (Machine γ) :=
  if m.dangling then none
  else
    match a with
    | .run => m.run grow functions
    | .script program =>
        if m.frames.isEmpty then some { m with frames := [.script program] } else none
    | .fire event arguments =>
        if m.frames.isEmpty then some (m.startFiring event arguments none) else none
    | .reset => if m.frames.isEmpty then some { m with listeners := fun _ => .empty } else none

end Kyber.Script
