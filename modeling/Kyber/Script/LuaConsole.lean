import Kyber.Lib.Vectors

/-!
# Calls of a plugin's functions (`LuaConsole.cpp`, `LuaEventManager.cpp`)

A plugin registers Lua functions as console commands and as callbacks for events. The
module calls them over the stack of the plugin's Lua state: it pushes the function and
its arguments, and `lua_pcall` puts what the function returns, or the value of the error
that it raises, in their place. What else is on the stack is for the module to remove.

While a Lua function runs it may change the plugin as it likes. A function of the module
that it calls has a frame of the stack to itself, and there the module may call into Lua
again. So the calls that have not come to an end are a stack as well. Only the current
frame is spelled out, with its top first. How much room Lua has reserved for it is left
out.

A callback lies in the vector of its event with what it has captured; this is read again
after the call. What comes of this if the element has been moved is not defined, and
neither is what comes of a null pointer. Here it is the end of the process. A text is
passed on as a C string, up to the first null character.
-/

namespace Kyber.Script.Calls

open Kyber.Lib

inductive Value
  | nil
  | boolean (value : Bool)
  /-- a number, by the text it is converted to -/
  | number (text : String)
  | string (value : String)
  | table (ref : Nat)
  | function (ref : Nat)
  | userdata (ref : Nat)
  /-- the light userdata that `StorePlugin` makes -/
  | plugin
  deriving DecidableEq, Repr

def cString (text : String) : String :=
  String.ofList (text.toList.takeWhile (· ≠ Char.ofNat 0))

/-- `lua_isstring`, with what `lua_tostring` and `luaL_checkstring` give. -/
def Value.string? : Value → Option String
  | .string value => some (cString value)
  | .number text => some text
  | _ => none

/-- What an event is fired with, and null pointers among this. -/
inductive Argument
  | float (value : String)
  | text (value : Option String)
  | object (ref : Option Nat)
  deriving DecidableEq, Repr

/-- `LuaUtils::Push`: each argument is one value. -/
def Argument.value : Argument → Value
  | .float value => .number value
  | .text none => .nil
  | .text (some value) => .string (cString value)
  | .object none => .nil
  | .object (some ref) => .userdata ref

structure LuaConsoleCommand where
  instanceRef : Nat
  callbackRef : Nat
  deriving DecidableEq, Repr

/-- What `ListenFunc` captures. There is no table behind an `instanceRef` of -1. -/
structure LuaEventCallback where
  instanceRef : Option Nat
  callbackRef : Nat
  deriving DecidableEq, Repr

/-- The function of the module that has made a call. -/
inductive Caller
  | execute
  | callback (useInst : Bool) (event : String) (element : Iterator)
  deriving DecidableEq, Repr

/-- A call of `lua_pcall` that has not come to an end. -/
structure Pending where
  caller : Caller
  /-- the height of the stack when the module's function began -/
  height : Nat
  /-- what is below the Lua function -/
  below : List Value
  deriving DecidableEq, Repr

inductive Outcome
  | returned (values : List Value)
  | raised (error : Value)
  deriving DecidableEq, Repr

/-- A call that has come to an end, with the heights of the stack and the output. -/
structure Completed where
  caller : Caller
  outcome : Outcome
  before : Nat
  after : Nat
  output : List String
  deriving DecidableEq, Repr

structure Plugin where
  /-- what `luaL_ref` has put into the registry -/
  registry : List Value := []
  commands : List (String × LuaConsoleCommand) := []
  listeners : String → Vec LuaEventCallback := fun _ => .empty
  /-- the field `__plugin` of the global variable `plugin`, unless this cannot be indexed -/
  plugin : Option Value := some .plugin
  frame : List Value := []
  /-- the last one first -/
  pending : List Pending := []
  completed : List Completed := []
  /-- the process has come to its end -/
  crashed : Bool := false

namespace Plugin

/-! ## The stack -/

def push (p : Plugin) (value : Value) : Plugin := { p with frame := value :: p.frame }

def pop (p : Plugin) (n : Nat) : Plugin := { p with frame := p.frame.drop n }

/-- `lua_rawgeti` with the registry. -/
def rawgeti (p : Plugin) (ref : Nat) : Plugin := p.push (p.registry[ref]?.getD .nil)

/-- `lua_pushvalue` with a negative index. -/
def pushvalue (p : Plugin) (index : Nat) : Plugin := p.push (p.frame[index - 1]?.getD .nil)

/-- `lua_pushstring` -/
def pushstring (p : Plugin) (value : Option String) : Plugin := p.push (Argument.text value).value

/-- `lua_pcall` up to the start of the Lua function. -/
def pcall (p : Plugin) (args : Nat) (caller : Caller) (height : Nat) : Plugin :=
  { p with
    frame := []
    pending := ⟨caller, height, p.frame.drop (args + 1)⟩ :: p.pending }

/-- What `lua_pcall` leaves. -/
def leave (p : Plugin) (below : List Value) (results : Nat) : Outcome → Plugin
  | .returned values =>
      { p with
        frame := ((values ++ List.replicate results Value.nil).take results).reverse ++ below }
  | .raised error => { p with frame := error :: below }

/-- `luaL_ref` of a value that is not nil. -/
def ref (p : Plugin) (value : Value) : Plugin := { p with registry := p.registry ++ [value] }

/-- `GetPlugin`: there is no pointer to a plugin in another value. -/
def getPlugin (p : Plugin) : Option Plugin := if p.plugin = some .plugin then some p else none

/-- The message of an error is logged and removed. -/
def logError (p : Plugin) : Option Plugin := do
  let _ ← (← p.frame.head?).string?
  return p.pop 1

/-! ## Registration -/

/-- An argument of a function of the module. -/
def argument (arguments : List Value) (index : Nat) : Value := arguments[index - 1]?.getD .nil

/-- `ConsoleRegisterFunc`. A command replaces another one of this name. -/
def consoleRegisterFunc (p : Plugin) (arguments : List Value) : Plugin :=
  let argument := argument arguments
  match (argument 1).string?, (argument 2).string?, (argument 3).string?, argument 4 with
  | some _, some name, some _, .table instanceTable =>
      let instanceRef := p.registry.length
      let p := p.ref (.table instanceTable)
      match argument 5 with
      | .function callback =>
          let callbackRef := p.registry.length
          let p := p.ref (.function callback)
          { p with commands := (name, ⟨instanceRef, callbackRef⟩) :: p.commands }
      | _ => p
  | _, _, _, _ => p

/-- `LuaEventManager::Listen` -/
def listen (grow : Nat → Nat) (p : Plugin) (event : String) (callback : LuaEventCallback) :
    Plugin :=
  { p with
    listeners := fun e =>
      if e = event then (p.listeners e).pushBack grow callback else p.listeners e }

/-- `ListenFunc` -/
def listenFunc (grow : Nat → Nat) (p : Plugin) (arguments : List Value) : Plugin :=
  let argument := argument arguments
  match (argument 1).string?, argument 2 with
  | some event, .function callback =>
      let callbackRef := p.registry.length
      let p := p.ref (.function callback)
      match argument 3 with
      | .table instanceTable =>
          let instanceRef := p.registry.length
          (p.ref (.table instanceTable)).listen grow event ⟨some instanceRef, callbackRef⟩
      | _ => p.listen grow event ⟨none, callbackRef⟩
  | _, _ => p

/-! ## Console commands -/

/-- `LuaConsoleCommand::Execute` up to the start of the Lua function. -/
def execute (p : Plugin) (command : LuaConsoleCommand) (rawArguments : Option String) : Plugin :=
  let height := p.frame.length
  let p := p.rawgeti command.instanceRef
  let p := p.rawgeti command.callbackRef
  let p := p.pushvalue 2
  let p := p.pushstring rawArguments
  p.pcall 2 .execute height

/-- The rest of it, and what it outputs. -/
def executed (p : Plugin) (below : List Value) (outcome : Outcome) :
    Option (Plugin × List String) := do
  let p := p.leave below 1 outcome
  let p ← match outcome with
    | .returned _ => some p
    | .raised _ => p.logError
  let output := (p.frame.head?.bind Value.string?).toList
  return (p.pop 1, output)

/-! ## Events -/

/-- The callback of `ListenFunc` up to the start of the Lua function. -/
def callback (p : Plugin) (event : String) (element : Iterator) (listener : LuaEventCallback)
    (arguments : List Argument) : Plugin :=
  let height := p.frame.length
  match listener.instanceRef with
  | some instanceRef =>
      let p := p.rawgeti instanceRef
      let p := p.rawgeti listener.callbackRef
      let p := p.pushvalue 2
      let p := arguments.foldl (fun p argument => p.push argument.value) p
      p.pcall (arguments.length + 1) (.callback true event element) height
  | none =>
      let p := p.rawgeti listener.callbackRef
      let p := arguments.foldl (fun p argument => p.push argument.value) p
      p.pcall arguments.length (.callback false event element) height

/-- The rest of it. -/
def calledBack (p : Plugin) (below : List Value) (outcome : Outcome) (useInst : Bool)
    (event : String) (element : Iterator) : Option Plugin := do
  let p := p.leave below 0 outcome
  let _ ← (p.listeners event).get? element
  let p ← match outcome with
    | .returned _ => some p
    | .raised _ => p.getPlugin.bind logError
  return if useInst then p.pop 1 else p

/-! ## Steps -/

def complete (p : Plugin) (call : Pending) (outcome : Outcome) (output : List String) : Plugin :=
  { p with
    completed := p.completed ++ [⟨call.caller, outcome, call.height, p.frame.length, output⟩] }

/-- The Lua function that was called last comes to its end. -/
def finish (p : Plugin) (outcome : Outcome) : Option Plugin :=
  match p.pending with
  | [] => none
  | call :: pending =>
      let p := { p with pending }
      match call.caller with
      | .execute =>
          match p.executed call.below outcome with
          | some (p, output) => some (p.complete call outcome output)
          | none => some { p with crashed := true }
      | .callback useInst event element =>
          match p.calledBack call.below outcome useInst event element with
          | some p => some (p.complete call outcome [])
          | none => some { p with crashed := true }

end Plugin

inductive Action
  /-- Lua code runs, up to where a function of the module is called -/
  | lua (frame : List Value) (plugin : Option Value)
  | register (arguments : List Value)
  | listen (arguments : List Value)
  | execute (name : String) (rawArguments : Option String)
  /-- a callback of an event that is fired -/
  | fire (event : String) (index : Nat) (arguments : List Argument)
  | finish (outcome : Outcome)
  deriving DecidableEq, Repr

def step (grow : Nat → Nat) (p : Plugin) (a : Action) : Option Plugin :=
  if p.crashed then none
  else
    match a with
    | .lua frame plugin => some { p with frame, plugin }
    | .register arguments => some (p.consoleRegisterFunc arguments)
    | .listen arguments => some (p.listenFunc grow arguments)
    | .execute name rawArguments =>
        (p.commands.lookup name).map fun command => p.execute command rawArguments
    | .fire event index arguments =>
        let element : Iterator := ⟨(p.listeners event).buffer, index⟩
        ((p.listeners event).get? element).map fun listener =>
          p.callback event element listener arguments
    | .finish outcome => p.finish outcome

end Kyber.Script.Calls
