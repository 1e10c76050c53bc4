import Mathlib.Data.List.Basic

/-!
# Entities for Lua plugins (`LuaEntityManager.cpp`, `LuaPlayerManager.cpp`, `ScriptManager.cpp`)

Every plugin has a Lua state of its own. A function of the module that a plugin calls
finds its arguments in a frame on the stack of the plugin's state, pushes what it
returns on top of them and says how many values that are. The functions for entities
take the state for some of this from a static variable, which `Register` sets to the
state of the plugin that is loaded.

A stack is a list of frames, the current one first. Userdata and tables are objects of
a state, which values on the stack refer to; the memory of a userdata is a list of words.
What the engine answers is an argument. An error that is raised in a state other than
the caller's, and the use of a null pointer, end the process.
-/

namespace Kyber.Script.Stacks

/-! ## Lua states -/

inductive Value
  | nil
  | boolean (value : Bool)
  | integer (value : Int64)
  | string (value : String)
  /-- a table that the registration has made -/
  | registered (name : String)
  /-- a pointer, with the word that it points to -/
  | lightUserdata (word : UInt64)
  /-- a reference to an object of the state -/
  | object (id : Nat)
  deriving DecidableEq, Repr

inductive LuaType
  | nil
  | boolean
  | number
  | string
  | table
  | lightUserdata
  | object
  deriving DecidableEq, Repr

def Value.type : Value → LuaType
  | .nil => .nil
  | .boolean _ => .boolean
  | .integer _ => .number
  | .string _ => .string
  | .registered _ => .table
  | .lightUserdata _ => .lightUserdata
  | .object _ => .object

/-- `lua_isstring` and `luaL_checkstring`: a number is converted. -/
def Value.string? : Value → Option String
  | .string value => some value
  | .integer value => some (toString value)
  | _ => none

inductive Content
  | userdata (words : List UInt64)
  | table (array : List Value)
  deriving DecidableEq, Repr

structure Object where
  content : Content
  metatable : Option String := none
  deriving DecidableEq, Repr

inductive PluginRealm
  | client
  | server
  deriving DecidableEq, Repr

def PluginRealm.toInt : PluginRealm → Int64
  | .client => 0
  | .server => 1

structure LuaState where
  realm : PluginRealm
  objects : List Object := []
  /-- the current frame, and those of the callers -/
  frame : List Value := []
  callers : List (List Value) := []
  /-- metatables of types whose values are no objects -/
  typeMetatables : List (LuaType × String) := []
  deriving DecidableEq, Repr

namespace LuaState

/-- The value at an index, counted from 1. -/
def value? (s : LuaState) (index : Nat) : Option Value := s.frame[index - 1]?

/-- The first word of the userdata at the index, if there is one. -/
def userdata? (s : LuaState) (index : Nat) : Option UInt64 :=
  match s.value? index with
  | some (.lightUserdata word) => some word
  | some (.object id) =>
      match s.objects[id]? with
      | some { content := .userdata (word :: _), .. } => some word
      | _ => none
  | _ => none

/-- `lua_newuserdata`, and what is written to it. -/
def newUserdata (s : LuaState) (words : List UInt64) : LuaState :=
  { s with
    objects := s.objects ++ [{ content := .userdata words }]
    frame := s.frame ++ [.object s.objects.length] }

/-- `lua_createtable` -/
def createTable (s : LuaState) : LuaState :=
  { s with
    objects := s.objects ++ [{ content := .table [] }]
    frame := s.frame ++ [.object s.objects.length] }

/-- `luaL_getmetatable` and `lua_setmetatable` with the index -2. -/
def setMetatable (s : LuaState) (name : String) : LuaState :=
  match s.frame.getLast? with
  | none => s
  | some (.object id) =>
      { s with objects := s.objects.modify id fun o => { o with metatable := some name } }
  | some value => { s with typeMetatables := (value.type, name) :: s.typeMetatables }

/-- The array of a table with the value at a place that is counted from 1; the places in front
of it that it does not have are nil. -/
def setElement (array : List Value) (i : Nat) (value : Value) : List Value :=
  (array ++ List.replicate (i - array.length) Value.nil).set (i - 1) value

/-- `lua_rawseti` with the index -2, if there is a table. What the registration's tables hold
is left out. -/
def rawSetI (s : LuaState) (i : Nat) : Option LuaState :=
  match s.frame.reverse with
  | value :: .object id :: _ =>
      match s.objects[id]? with
      | some { content := .table _, .. } =>
          some { s with
            frame := s.frame.dropLast
            objects := s.objects.modify id fun o =>
              match o.content with
              | .table array => { o with content := .table (setElement array i value) }
              | _ => o }
      | _ => none
  | _ :: .registered _ :: _ => some { s with frame := s.frame.dropLast }
  | _ => none

/-- A function of the module is called. -/
def enter (s : LuaState) (arguments : List Value) : LuaState :=
  { s with frame := arguments, callers := s.frame :: s.callers }

/-- It returns. -/
def leave (s : LuaState) : LuaState :=
  { s with frame := s.callers.headD [], callers := s.callers.tail }

end LuaState

/-! ## The module -/

structure Scripting where
  /-- the states, in the order in which the plugins were loaded -/
  states : List LuaState := []
  /-- `LuaEntityManager::s_lua` -/
  sLua : Option Nat := none
  deriving DecidableEq, Repr

/-- What the registration leaves on the stack. -/
def leftOnStack : List Value :=
  ["TypeInfo", "DataContainer", "ValueType", "FBArray", "Entity", "EntityBus", "ServerPlayer",
    "WinSocket", "package", "CameraScene", "Camera"].map .registered

inductive CallResult
  | returned (values : List Value)
  | raised
  | crashed
  deriving DecidableEq, Repr

/-- The basic type of a native type, as far as `EntityRead` tells them apart. -/
inductive BasicType
  | void
  | dbObject
  | valueType
  | classRef
  | other
  deriving DecidableEq, Repr

structure Engine where
  /-- the entities of the root level with the names of their types, if there is a world -/
  gameWorld : Int64 → Option (List (UInt64 × String))
  /-- there are a player manager, a local player and an active camera -/
  camera : Bool
  createEntity : UInt64 → UInt64
  characterEntity : UInt64 → UInt64
  vehicleEntity : UInt64 → UInt64
  entityBus : UInt64 → UInt64
  /-- the value of a property, if it is set -/
  readProperty : UInt64 → String → Option UInt64
  /-- `GetNativeType`: a pointer to the type and its basic type -/
  nativeType : String → Option (UInt64 × BasicType)

namespace Scripting

def modify (w : Scripting) (L : Nat) (f : LuaState → LuaState) : Scripting :=
  { w with states := w.states.modify L f }

/-- The state in the static variable; there is one as soon as there is a plugin. -/
def onStatic (w : Scripting) (f : LuaState → LuaState) : Scripting :=
  match w.sLua with
  | none => w
  | some L => w.modify L f

/-- `LoadPlugin` up to the plugin's own scripts. -/
def load (w : Scripting) (realm : PluginRealm) : Scripting where
  states := w.states ++ [{ realm, frame := leftOnStack }]
  sLua := some w.states.length

def wrapEntity (w : Scripting) (entity : UInt64) : Scripting := w.onStatic (·.newUserdata [entity])

def wrapEntityBus (w : Scripting) (bus : UInt64) : Scripting := w.onStatic (·.newUserdata [bus])

/-- `LuaUtils::Push<NativeEntity*>` -/
def pushEntity (w : Scripting) (L : Nat) (entity : UInt64) : Scripting :=
  (w.wrapEntity entity).modify L (·.setMetatable "Entity")

/-- `LuaUtils::Push<EntityBus*>` -/
def pushEntityBus (w : Scripting) (L : Nat) (bus : UInt64) : Scripting :=
  (w.wrapEntityBus bus).modify L (·.setMetatable "EntityBus")

/-- The C function returns this many values. -/
def returns (w : Scripting) (L : Nat) (count : Nat) : Scripting × CallResult :=
  match w.states[L]? with
  | none => (w, .crashed)
  | some s => (w.modify L .leave, .returned (s.frame.drop (s.frame.length - count)))

/-- `luaL_error` in the caller's state. -/
def raise (w : Scripting) (L : Nat) : Scripting × CallResult := (w.modify L .leave, .raised)

/-- `GetEntity` and `GetEntityBus`, with what follows an error. -/
def getEntity (w : Scripting) (L index : Nat) : Except CallResult UInt64 :=
  match w.sLua with
  | none => .error .crashed
  | some static =>
      match (w.states[static]?).bind (·.userdata? index) with
      | some word => .ok word
      | none => .error (if static = L then .raised else .crashed)

end Scripting

/-! ## Functions -/

section

variable (engine : Engine)

open Scripting

/-- `CreateEntityFunc` -/
def createEntityFunc (w : Scripting) (L : Nat) (s : LuaState) : Scripting × CallResult :=
  match s.userdata? 1 with
  | none => if s.value? 1 = some .nil then (w, .crashed) else w.raise L
  | some container =>
      if container = 0 then (w, .crashed)
      else if (engine.gameWorld s.realm.toInt).isNone then w.returns L 1
      else if s.realm = .client ∧ engine.camera = false then w.returns L 1
      else (w.pushEntity L (engine.createEntity container)).returns L 1

/-- The loop of `GetListFunc`. -/
def pushList (L : Nat) : Nat → Scripting → List UInt64 → Option Scripting
  | _, w, [] => some w
  | i, w, entity :: entities => do
      let w := w.pushEntity L entity
      let s ← (w.states[L]?).bind (·.rawSetI i)
      pushList L (i + 1) (w.modify L fun _ => s) entities

/-- `GetListFunc` -/
def getListFunc (w : Scripting) (L : Nat) (s : LuaState) : Scripting × CallResult :=
  match (s.value? 1).bind Value.string? with
  | none => w.returns L 0
  | some entityName =>
      match s.value? 2 with
      | some (.integer realm) =>
          match engine.gameWorld realm with
          | none => w.returns L 1
          | some entities =>
              let named := (entities.filter (·.2 = entityName)).map Prod.fst
              match pushList L 1 (w.modify L .createTable) named with
              | none => (w, .crashed)
              | some w => w.returns L 1
      | _ => w.raise L

/-- `ServerPlayerIndex` for a key that gives an entity. -/
def serverPlayerIndex (entityOf : UInt64 → UInt64) (w : Scripting) (L : Nat) (s : LuaState) :
    Scripting × CallResult :=
  match s.userdata? 1 with
  | none => w.raise L
  | some player =>
      if player = 0 then (w, .crashed) else (w.pushEntity L (entityOf player)).returns L 1

/-- `EntityIndex` for the key of the bus. -/
def entityIndex (w : Scripting) (L : Nat) : Scripting × CallResult :=
  match w.getEntity L 1 with
  | .error .raised => w.raise L
  | .error e => (w, e)
  | .ok entity =>
      if entity = 0 then (w, .crashed) else (w.pushEntityBus L (engine.entityBus entity)).returns L 1

/-- `EntityRead` -/
def entityRead (w : Scripting) (L : Nat) (s : LuaState) : Scripting × CallResult :=
  match w.getEntity L 1 with
  | .error .raised => w.raise L
  | .error e => (w, e)
  | .ok entity =>
      if entity = 0 then w.returns L 0
      else
        match (s.value? 2).bind Value.string?, (s.value? 3).bind Value.string? with
        | some key, some typeName =>
            match engine.readProperty entity key, engine.nativeType typeName with
            | none, _ => w.returns L 0
            | some _, none => (w, .crashed)
            | some value, some (type, .valueType) =>
                ((w.modify L (·.newUserdata [type, value])).modify L
                  (·.setMetatable "ValueType")).returns L 1
            | some value, some (_, .classRef) =>
                ((w.modify L (·.newUserdata [value])).modify L
                  (·.setMetatable "DataContainer")).returns L 1
            | some _, some (_, .void) | some _, some (_, .dbObject) => w.returns L 1
            | some _, some (_, .other) => w.returns L 0
        | _, _ => w.raise L

/-- A call of a plugin. -/
inductive ApiCall
  /-- `EntityManager.Create` -/
  | create (arguments : List Value)
  /-- `EntityManager.GetList` -/
  | getList (arguments : List Value)
  | characterEntity (player : Value)
  | vehicleEntity (player : Value)
  | bus (entity : Value)
  /-- `Read` of an entity -/
  | read (arguments : List Value)
  deriving DecidableEq, Repr

def ApiCall.frame : ApiCall → List Value
  | .create arguments | .getList arguments | .read arguments => arguments
  | .characterEntity player => [player, .string "characterEntity"]
  | .vehicleEntity player => [player, .string "vehicleEntity"]
  | .bus entity => [entity, .string "bus"]

def perform (w : Scripting) (L : Nat) (call : ApiCall) : Scripting × CallResult :=
  match w.states[L]? with
  | none => (w, .crashed)
  | some caller =>
      let s := caller.enter call.frame
      let w := w.modify L fun _ => s
      match call with
      | .create _ => createEntityFunc engine w L s
      | .getList _ => getListFunc engine w L s
      | .characterEntity _ => serverPlayerIndex engine.characterEntity w L s
      | .vehicleEntity _ => serverPlayerIndex engine.vehicleEntity w L s
      | .bus _ => entityIndex engine w L
      | .read _ => entityRead engine w L s

/-! ## Runs -/

inductive Action
  | load (realm : PluginRealm)
  /-- a plugin's own Lua code, which may do anything to its state -/
  | lua (L : Nat) (s : LuaState)
  | call (L : Nat) (call : ApiCall)
  deriving DecidableEq, Repr

/-- Nothing happens after the end of the process. -/
def step (w : Scripting) : Action → Option Scripting
  | .load realm => some (w.load realm)
  | .lua L s => some (w.modify L fun old => { s with realm := old.realm })
  | .call L call =>
      match perform engine w L call with
      | (_, .crashed) => none
      | (w, _) => some w

end

end Kyber.Script.Stacks
