import Kyber.Lib.Layouts
import Kyber.Script.LuaDataContainer

/-!
# Fields for Lua (`LuaDataContainer.cpp`)

Containers, and the values that are inside of them or that a script has made, are in a memory of
bytes. A script has pointers to them, and what it reads and writes goes through the types of the
engine, which say where a field is and what is in it.

An argument is what the Lua library makes of it, which is in `LuaApi`; floating point numbers are
the bits of them. A string that ends with the first zero is without this zero here. What is
undefined has no result.
-/

namespace Kyber.Script.Fields

open Kyber.Lib Kyber.Sdk
open Containers (LuaError LuaArg setReference)

/-! ## Types -/

inductive TypeCodeEnum
  | void
  | dbObject
  | valueType
  | classType
  | array
  | cString
  | enum
  | boolean
  | int8
  | uint8
  | int16
  | uint16
  | int32
  | uint32
  | int64
  | uint64
  | float32
  | float64
  deriving DecidableEq, Repr

structure FieldInfoData where
  name : List UInt8
  fieldOffset : UInt16
  fieldTypePtr : UInt64
  deriving DecidableEq, Repr

/-- `TypeInfo` with what its data has, for a value type or an array too. -/
structure TypeInfo where
  basicType : TypeCodeEnum := .void
  isBlittable : Bool := false
  totalSize : UInt16 := 0
  elementType : UInt64 := 0
  fields : List FieldInfoData := []
  deriving DecidableEq, Repr

/-- The types, by the pointers to them. -/
abbrev Types := UInt64 → TypeInfo

inductive ClassInfoData
  /-- without a superclass, or with itself as that -/
  | root (fields : List FieldInfoData)
  | derived (fields : List FieldInfoData) (superClass : ClassInfoData)
  deriving DecidableEq, Repr

structure ClassInfo where
  address : UInt64
  totalSize : UInt16
  typeInfoData : ClassInfoData
  deriving DecidableEq, Repr

def tolower (c : UInt8) : Int := if 65 ≤ c ∧ c ≤ 90 then c.toNat + 32 else c.toNat

def strcicmp : List UInt8 → List UInt8 → Int
  | [], [] => 0
  | [], b :: _ => -tolower b
  | a :: _, [] => tolower a
  | a :: as, b :: bs =>
      let d := tolower a - tolower b
      if d ≠ 0 then d else strcicmp as bs

/-- The loop over the fields of one type. -/
def fieldIn (fields : List FieldInfoData) (key : List UInt8) : Option FieldInfoData :=
  fields.find? fun field => strcicmp field.name key == 0

def findField (key : List UInt8) : ClassInfoData → Option FieldInfoData
  | .root fields => fieldIn fields key
  | .derived fields superClass =>
      match fieldIn fields key with
      | some field => some field
      | none => findField key superClass

/-! ## Values -/

inductive ScriptValue
  | nil
  | boolean (value : Bool)
  | integer (value : Int64)
  | number (bits : UInt64)
  | string (bytes : List UInt8)
  /-- `DataContainerIsFunc` -/
  | isFunc
  | typeInfo (type : UInt64)
  | dataContainer (container : UInt64)
  | valueType (type : UInt64) (value : Nat)
  | fbArray (elementType : UInt64) (value : Nat)
  | other (typename : String)
  deriving DecidableEq, Repr

/-- `lua_typename` -/
def ScriptValue.typename : ScriptValue → String
  | .nil => "nil"
  | .boolean _ => "boolean"
  | .integer _ | .number _ => "number"
  | .string _ => "string"
  | .isFunc => "function"
  | .typeInfo _ | .dataContainer _ | .valueType _ _ | .fbArray _ _ => "userdata"
  | .other typename => typename

/-- `lua_toboolean` -/
def ScriptValue.toBoolean : ScriptValue → Bool
  | .nil | .boolean false => false
  | _ => true

/-- What `GetDataContainer` sees of a value: of any userdata the first word. -/
def ScriptValue.toArg : ScriptValue → LuaArg
  | .nil => .nil
  | .typeInfo first | .dataContainer first | .valueType first _ | .fbArray first _ =>
      .userdata first fun _ => 0
  | v => .other v.typename

/-- `GetValueType` of the third argument: the first word of any userdata, and the second of
those that have two. -/
def getValueType : ScriptValue → Except LuaError (UInt64 × Option Nat)
  | .valueType type value | .fbArray type value => .ok (type, some value)
  | .typeInfo first | .dataContainer first => .ok (first, none)
  | v => .error (.raised ("Expected userdata for value type, got " ++ v.typename ++ " (idx: 3)"))

/-- What the Lua library and the machine do with arguments and numbers. -/
structure LuaApi where
  /-- `luaL_checkstring` of the argument at an index, with the zeros in it -/
  checkString : Nat → ScriptValue → Except LuaError (List UInt8)
  checkInteger : Nat → ScriptValue → Except LuaError Int64
  checkNumber : Nat → ScriptValue → Except LuaError UInt64
  floatToNumber : UInt32 → UInt64
  numberToFloat : UInt64 → UInt32

/-- A string up to the first zero. -/
def cString (bytes : List UInt8) : List UInt8 := bytes.takeWhile (· ≠ 0)

/-! ## Memory -/

/-- What an object in memory is of: a value type, or a class. -/
inductive Shape
  | value (type : UInt64)
  | object (info : ClassInfo)
  deriving DecidableEq, Repr

structure Heap where
  memory : Nat → UInt8
  /-- what the pointers to characters point to -/
  strings : UInt64 → Option (List UInt8)
  refCounts : RefCounts
  objects : Objects Shape
  /-- what the script has been given -/
  held : List ScriptValue

/-- `m_dcType` of what is a container -/
def dcType (objects : Objects Shape) (container : UInt64) : Option ClassInfo :=
  objects.findSome? fun ob =>
    match ob.2 with
    | .object info => if ob.1 = container.toNat then some info else none
    | .value _ => none

/-- How many bytes a value of a type takes. -/
def sizeOf (types : Types) (type : UInt64) : Nat :=
  match (types type).basicType with
  | .void => 0
  | .valueType => (types type).totalSize.toNat
  | .boolean | .int8 | .uint8 => 1
  | .int16 | .uint16 => 2
  | .enum | .int32 | .uint32 | .float32 => 4
  | .dbObject | .classType | .array | .cString | .int64 | .uint64 | .float64 => 8

/-- What is read in a field whose value is not an object, an array or nothing. -/
def basicValue (lua : LuaApi) (strings : UInt64 → Option (List UInt8)) (code : TypeCodeEnum)
    (bytes : List UInt8) : Option ScriptValue :=
  let bits := leNat bytes
  match code with
  | .classType => some (.dataContainer (UInt64.ofNat bits))
  | .cString =>
      if UInt64.ofNat bits = 0 then
        some .nil
      else
        (strings (UInt64.ofNat bits)).map .string
  | .boolean => some (.boolean (bits ≠ 0))
  | .int32 => some (.integer (UInt32.ofNat bits).toInt32.toInt64)
  | .enum | .uint32 => some (.integer (UInt32.ofNat bits).toUInt64.toInt64)
  | .int64 | .uint64 => some (.integer (UInt64.ofNat bits).toInt64)
  | .float32 => some (.number (lua.floatToNumber (UInt32.ofNat bits)))
  | .float64 => some (.number (UInt64.ofNat bits))
  | _ => none

def typeInfoIndex (lua : LuaApi) (types : Types) (h : Heap) (value : Nat) (field : FieldInfoData)
    (key : List UInt8) : Option ScriptValue :=
  let target := value + field.fieldOffset.toNat
  let type := types field.fieldTypePtr
  match type.basicType with
  -- nothing is pushed, and what is on the top is the key
  | .void | .dbObject => some (.string key)
  | .valueType => some (.valueType field.fieldTypePtr target)
  | .array => some (.fbArray type.elementType target)
  | .int8 | .uint8 | .int16 | .uint16 => some .nil
  | code =>
      basicValue lua h.strings code (fetch h.memory target (sizeOf types field.fieldTypePtr))

/-- What is written for an argument that is not a userdata or a string. -/
def basicBytes (lua : LuaApi) (code : TypeCodeEnum) (arg : ScriptValue) :
    Except LuaError (List UInt8) :=
  match code with
  | .boolean => .ok [if arg.toBoolean then 1 else 0]
  | .enum | .int32 | .uint32 =>
      (lua.checkInteger 3 arg).map fun i => leBytes 4 i.toUInt64.toUInt32.toNat
  | .int64 | .uint64 => (lua.checkInteger 3 arg).map fun i => leBytes 8 i.toUInt64.toNat
  | .float32 => (lua.checkNumber 3 arg).map fun d => leBytes 4 (lua.numberToFloat d).toNat
  | _ => .ok []

/-- `copy` is where the arena puts the copy of a string, if one is made. -/
def typeInfoNewIndex (lua : LuaApi) (types : Types) (h : Heap) (value : Nat)
    (field : FieldInfoData) (arg : ScriptValue) (copy : UInt64) :
    Option (Heap × Except LuaError Unit) :=
  let target := value + field.fieldOffset.toNat
  let type := types field.fieldTypePtr
  match type.basicType with
  | .valueType =>
      if type.isBlittable then
        match getValueType arg with
        | .error error => some (h, .error error)
        | .ok bind =>
            if bind.1 ≠ field.fieldTypePtr then
              some (h, .ok ())
            else
              bind.2.map fun source =>
                ({ h with
                    memory := store h.memory target (fetch h.memory source type.totalSize.toNat) },
                  .ok ())
      else
        some (h, .ok ())
  | .classType =>
      let current := UInt64.ofNat (leNat (fetch h.memory target 8))
      let result := setReference h.refCounts current arg.toArg
      match result.2 with
      | .error error => some ({ h with refCounts := result.1 }, .error error)
      | .ok container =>
          some ({ h with
              refCounts := result.1
              memory := store h.memory target (leBytes 8 container.toNat) }, .ok ())
  | .cString =>
      match lua.checkString 3 arg with
      | .error error => some (h, .error error)
      | .ok bytes =>
          -- what is allocated is at an address of its own
          if copy = 0 ∨ (h.strings copy).isSome then
            none
          else
            some ({ h with
                strings := Function.update h.strings copy (some (cString bytes))
                memory := store h.memory target (leBytes 8 copy.toNat) }, .ok ())
  | code =>
      match basicBytes lua code arg with
      | .error error => some (h, .error error)
      | .ok bytes => some ({ h with memory := store h.memory target bytes }, .ok ())

/-! ## What a script does -/

def dataContainerIndex (lua : LuaApi) (types : Types) (h : Heap) (container : UInt64)
    (key : ScriptValue) : Option (Except LuaError ScriptValue) :=
  match lua.checkString 2 key with
  | .error error => some (.error error)
  | .ok bytes => do
      -- `Is` and `typeInfo`
      if cString bytes = [73, 115] then
        some (.ok .isFunc)
      else
        let info ← dcType h.objects container
        if cString bytes = [116, 121, 112, 101, 73, 110, 102, 111] then
          some (.ok (.typeInfo info.address))
        else
          match findField (cString bytes) info.typeInfoData with
          | none => some (.ok .nil)
          | some field =>
              (typeInfoIndex lua types h container.toNat field bytes).map .ok

def dataContainerNewIndex (lua : LuaApi) (types : Types) (h : Heap) (container : UInt64)
    (key arg : ScriptValue) (copy : UInt64) : Option (Heap × Except LuaError Unit) :=
  match lua.checkString 2 key with
  | .error error => some (h, .error error)
  | .ok bytes => do
      let info ← dcType h.objects container
      match findField (cString bytes) info.typeInfoData with
      | none => some (h, .ok ())
      | some field => typeInfoNewIndex lua types h container.toNat field arg copy

def valueTypeIndex (lua : LuaApi) (types : Types) (h : Heap) (type : UInt64) (value : Nat)
    (key : ScriptValue) : Option (Except LuaError ScriptValue) :=
  match lua.checkString 2 key with
  | .error error => some (.error error)
  | .ok bytes =>
      match fieldIn (types type).fields (cString bytes) with
      | none => some (.ok .nil)
      | some field => (typeInfoIndex lua types h value field bytes).map .ok

def valueTypeNewIndex (lua : LuaApi) (types : Types) (h : Heap) (type : UInt64) (value : Nat)
    (key arg : ScriptValue) (copy : UInt64) : Option (Heap × Except LuaError Unit) :=
  match lua.checkString 2 key with
  | .error error => some (h, .error error)
  | .ok bytes =>
      match fieldIn (types type).fields (cString bytes) with
      | none => some (h, .ok ())
      | some field => typeInfoNewIndex lua types h value field arg copy

inductive Access
  | index (receiver key : ScriptValue)
  | newIndex (receiver key arg : ScriptValue) (copy : UInt64)
  /-- `ValueTypeCreate`, and `DataContainerCreateFunc`, with what the engine has made in memory.
  The contents are what is to be seen there at each offset. -/
  | create (shape : Shape) (address : Nat) (bytes : List UInt8) (contents : Nat → ScriptValue)

/-- The userdata for a new object. -/
def Shape.userdata (address : Nat) : Shape → ScriptValue
  | .value type => .valueType type address
  | .object _ => .dataContainer (UInt64.ofNat address)

abbrev Answer := Except LuaError ScriptValue

def Heap.give (h : Heap) : Answer → Heap
  | .ok v => { h with held := v :: h.held }
  | .error _ => h

def index (lua : LuaApi) (types : Types) (h : Heap) (key : ScriptValue) :
    ScriptValue → Option Answer
  | .dataContainer container => dataContainerIndex lua types h container key
  | .valueType type value => valueTypeIndex lua types h type value key
  | _ => none

def newIndex (lua : LuaApi) (types : Types) (h : Heap) (key arg : ScriptValue) (copy : UInt64) :
    ScriptValue → Option (Heap × Except LuaError Unit)
  | .dataContainer container => dataContainerNewIndex lua types h container key arg copy
  | .valueType type value => valueTypeNewIndex lua types h type value key arg copy
  | _ => none

def step (lua : LuaApi) (types : Types) (h : Heap) : Access → Option (Heap × Answer)
  | .index receiver key =>
      (index lua types h key receiver).map fun answer => (h.give answer, answer)
  | .newIndex receiver key arg copy =>
      (newIndex lua types h key arg copy receiver).map fun r => (r.1, r.2.map fun _ => .nil)
  | .create shape address bytes _ =>
      let answer := .ok (shape.userdata address)
      let refCounts :=
        match shape with
        | .value _ => h.refCounts
        | .object _ => Function.update h.refCounts (UInt64.ofNat address) 1
      some (Heap.give { h with
        memory := store h.memory address bytes
        refCounts
        objects := h.objects ++ [(address, shape)] } answer, answer)

end Kyber.Script.Fields
