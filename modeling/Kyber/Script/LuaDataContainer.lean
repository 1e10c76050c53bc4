import Kyber.Sdk.Containers

/-!
# Containers and arrays for Lua (`LuaDataContainer.cpp`)

The userdata for a container holds the pointer to it; that for an array or a value type
holds a pointer and the type. What a function finds of its arguments on the stack, and pushes
on it, is a list with the top first, and what it returns are so many values from the top.

An integer argument is what `luaL_checkinteger` makes of it. Of a userdata that is given as a
value, two words may be read, whatever it is for: the first, and what the second points to.
-/

namespace Kyber.Script.Containers

open Kyber.Lib Kyber.Sdk

/-! ## Types and values -/

/-- `getBasicType`, as far as arrays distinguish it -/
inductive TypeCode
  | valueType
  | classType
  | array
  | other
  deriving DecidableEq, Repr

structure TypeInfo where
  address : UInt64
  basicType : TypeCode
  totalSize : UInt16
  isBlittable : Bool
  /-- what the data of the type has where that of an array type has the type of its elements -/
  elementType : UInt64
  deriving DecidableEq, Repr

inductive Pointer
  | address (value : UInt64)
  /-- so many bytes from the first element of the array on -/
  | fromData (offset : Int)
  deriving DecidableEq, Repr

inductive FBArrayFunc
  | insert
  | extend
  deriving DecidableEq, Repr

inductive LuaValue
  | nil
  | integer (value : Int64)
  | function (func : FBArrayFunc)
  | metatable (name : String)
  /-- the userdata that a function is called on -/
  | receiver
  | dataContainer (container : UInt64)
  | valueType (type : UInt64) (value : Pointer)
  | fbArray (type : UInt64) (value : Pointer)
  deriving DecidableEq, Repr

inductive LuaError
  /-- `luaL_error` -/
  | raised (message : String)
  /-- `luaL_argerror` -/
  | argument (arg : Nat) (message : String)
  deriving DecidableEq, Repr

/-- The index that an array is asked for. -/
inductive Key
  | string (str : String)
  | integer (value : Int64)
  deriving DecidableEq, Repr

/-- A value that is to be stored. -/
inductive LuaArg
  | nil
  | userdata (first : UInt64) (pointee : Nat → UInt8)
  /-- a light userdata of a null pointer -/
  | nullUserdata
  | other (typename : String)

def getDataContainer : LuaArg → Except LuaError UInt64
  | .nil => .ok 0
  | .userdata first _ => .ok first
  | .nullUserdata => .error (.raised "Expected userdata for container")
  | .other typename =>
      .error (.raised ("Expected userdata for container, got " ++ typename))

/-- `GetValueType` of the third argument: the type, and the bytes of the value. -/
def getValueType : LuaArg → Except LuaError (UInt64 × (Nat → UInt8))
  | .nil => .error (.raised "Expected userdata for value type, got nil (idx: 3)")
  | .userdata first pointee => .ok (first, pointee)
  | .nullUserdata => .error (.raised "Expected userdata for value type")
  | .other typename =>
      .error (.raised ("Expected userdata for value type, got " ++ typename ++ " (idx: 3)"))

/-- What a field or an element of a class type that holds `current` gets when `arg` is stored
in it: the same lines are in `TypeInfoNewIndex` and in `FBArrayNewIndex`. An error leaves it. -/
def setReference (counts : RefCounts) (current : UInt64) (arg : LuaArg) :
    RefCounts × Except LuaError UInt64 :=
  let counts := if current ≠ 0 then release counts current else counts
  match getDataContainer arg with
  | .error error => (counts, .error error)
  | .ok container => (if container ≠ 0 then addRef counts container else counts, .ok container)

/-! ## Arrays -/

/-- `lua_setmetatable` for the value below the top, which it takes without a look at it. -/
def setMetatable (stack : List LuaValue) : List LuaValue := stack.tail

/-- Where the code has an element of a value type; the product is an `int`. -/
def valuePlace (type : TypeInfo) (index : Int32) : Int :=
  (Int32.ofNat type.totalSize.toNat * index).toInt

/-- The case of `PushFBArrayValue` for arrays. -/
def pushArray (type : TypeInfo) (array : FBArray) (index : Int32) (stack : List LuaValue) :
    Option (List LuaValue) := do
  let target ← array.element index.toUInt32
  if target = 0 then
    some (.nil :: stack)
  else
    some (setMetatable (.metatable "FBArray" ::
      .fbArray type.elementType (.address target) :: stack))

def pushFBArrayValue (type : TypeInfo) (array : FBArray) (index : Int32)
    (stack : List LuaValue) : Option (List LuaValue) :=
  match type.basicType with
  | .classType => do
      let target ← array.element index.toUInt32
      if target = 0 then
        some (.nil :: stack)
      else
        some (setMetatable (.metatable "DataContainer" :: .dataContainer target :: stack))
  | .valueType =>
      let stack := .valueType type.address (.fromData (valuePlace type index)) :: stack
      -- the metatable of this is set already, and what is taken now is the userdata
      let stack := setMetatable stack
      -- the case has no break
      pushArray type array index stack
  | .array => pushArray type array index stack
  | .other => some (.nil :: stack)

def fbArrayIndex (type : TypeInfo) (array : FBArray) :
    Key → Option (Except LuaError (List LuaValue))
  | .string str =>
      if str = "insert" then
        some (.ok [.function .insert])
      else if str = "extend" then
        some (.ok [.function .extend])
      else
        some (.error (.raised "Invalid index into FBArray"))
  | .integer key => do
      let index := (key - 1).toInt32
      let size ← array.size
      if index < 0 ∨ size ≤ index.toUInt32 then
        some (.ok [])
      else
        let stack ← pushFBArrayValue type array index [.integer key, .receiver]
        some (.ok (stack.take 1))

structure State where
  array : FBArray
  refCounts : RefCounts

/-- Lua drops what a `__newindex` returns. -/
def fbArrayNewIndex (type : TypeInfo) (s : State) (key : Int64) (arg : LuaArg) :
    Option (State × Except LuaError Unit) := do
  let index := (key - 1).toInt32
  let size ← s.array.size
  if index < 0 ∨ size ≤ index.toUInt32 then
    some (s, .error (.argument 2 "Index out of bounds"))
  else
    match type.basicType with
    | .valueType =>
        if type.isBlittable then
          match getValueType arg with
          | .error error => some (s, .error error)
          | .ok bind =>
              if bind.1 ≠ type.address then
                some (s, .ok ())
              else
                let array ← s.array.write (valuePlace type index)
                  ((List.range type.totalSize.toNat).map bind.2)
                some ({ s with array }, .ok ())
        else
          some (s, .ok ())
    | .classType =>
        let current ← s.array.element index.toUInt32
        let result := setReference s.refCounts current arg
        match result.2 with
        | .error error => some ({ s with refCounts := result.1 }, .error error)
        | .ok container =>
            let array ← s.array.setElement index.toUInt32 container
            some ({ array, refCounts := result.1 }, .ok ())
    | _ => some (s, .ok ())

def fbArrayExtend (array : FBArray) (memory : Nat → UInt8) (amount : Int64) :
    Option (FBArray × List LuaValue) := do
  let array ← array.extend memory amount.toInt32.toUInt32
  some (array, [LuaValue.integer amount, .receiver].take 1)

/-- The results are in the order in which they are pushed. -/
def fbArrayIterator (type : TypeInfo) (array : FBArray) (control : Int64) :
    Option (List LuaValue) := do
  let index := control.toInt32
  let size ← array.size
  if size ≤ index.toUInt32 then
    some []
  else
    let stack ← pushFBArrayValue type array index
      [.integer (index + 1).toInt64, .integer control, .receiver]
    some (stack.take 2).reverse

/-- The loop over what `FBArrayPairs` returns: the results of the iterator, until the first of
them is nil. -/
def forPairs (type : TypeInfo) (array : FBArray) : Nat → Int64 → Option (List (List LuaValue))
  | 0, _ => none
  | fuel + 1, control => do
      let results ← fbArrayIterator type array control
      match results with
      | .integer control' :: _ =>
          let rest ← forPairs type array fuel control'
          some (results :: rest)
      | _ => some []

/-! ## What a script does with an array -/

inductive Call
  | index (key : Key)
  | newIndex (key : Int64) (arg : LuaArg)
  /-- with what is in the memory that is allocated -/
  | extend (amount : Int64) (memory : Nat → UInt8)
  /-- one step of a loop that may do other things between the steps -/
  | next (control : Int64)
  /-- a whole loop -/
  | pairs

inductive Answer
  | values (results : List LuaValue)
  | error (error : LuaError)
  | steps (results : List (List LuaValue))
  deriving DecidableEq, Repr

def Answer.ofExcept : Except LuaError (List LuaValue) → Answer
  | .ok results => .values results
  | .error e => .error e

def call (type : TypeInfo) (s : State) : Call → Option (State × Answer)
  | .index key => do
      let result ← fbArrayIndex type s.array key
      some (s, Answer.ofExcept result)
  | .newIndex key arg => do
      let result ← fbArrayNewIndex type s key arg
      some (result.1, Answer.ofExcept (result.2.map fun _ => []))
  | .extend amount memory => do
      let result ← fbArrayExtend s.array memory amount
      some ({ s with array := result.1 }, .values result.2)
  | .next control => do
      let results ← fbArrayIterator type s.array control
      some (s, .values results)
  | .pairs => do
      let size ← s.array.size
      -- every step takes the index, as an unsigned number, one further towards the size
      let steps ← forPairs type s.array (size.toNat + 1) 0
      some (s, .steps steps)

end Kyber.Script.Containers

/-!
## What holds a container

What holds a container: the fields of containers and the elements of arrays that are of a class
type, the userdata that wrap it, and the engine, whose references stay as they are. Each field,
element and userdata is a pointer in one of three lists, and an operation names one of them by
its place there.

A finaliser is called once, at any time after the script has dropped the userdata.
-/

namespace Kyber.Script.Containers

open Kyber.Sdk

structure Heap where
  refCounts : RefCounts
  fields : List UInt64
  elements : List UInt64
  userdata : List UInt64
  engine : UInt64 → Nat

inductive Operation
  | readField (i : Nat)
  | readElement (i : Nat)
  | writeField (i : Nat) (arg : LuaArg)
  | writeElement (i : Nat) (arg : LuaArg)
  /-- `DataContainerGc` -/
  | finalise (i : Nat)
  /-- `DataContainerCreateFunc`, with the address of the new container and the number of its
  fields that are of a class type -/
  | create (container : UInt64) (fields : Nat)

namespace Heap

def wrapDataContainer (h : Heap) (container : UInt64) : Heap :=
  { h with userdata := container :: h.userdata }

/-- `TypeInfoIndex` for a class: a null pointer is wrapped too. -/
def typeInfoIndex (h : Heap) (i : Nat) : Option Heap := do
  let target ← h.fields[i]?
  some (h.wrapDataContainer target)

/-- `PushFBArrayValue` for a class -/
def pushElement (h : Heap) (i : Nat) : Option Heap := do
  let target ← h.elements[i]?
  if target = 0 then
    some h
  else
    some (h.wrapDataContainer target)

/-- The lines for a class that `TypeInfoNewIndex` and `FBArrayNewIndex` have in common. -/
def assign (counts : RefCounts) (slots : List UInt64) (i : Nat) (arg : LuaArg) :
    Option (RefCounts × List UInt64) := do
  let current ← slots[i]?
  let result := setReference counts current arg
  match result.2 with
  | .error _ => some (result.1, slots)
  | .ok container => some (result.1, slots.set i container)

/-- `TypeInfoNewIndex` for a class -/
def typeInfoNewIndex (h : Heap) (i : Nat) (arg : LuaArg) : Option Heap :=
  (assign h.refCounts h.fields i arg).map fun r => { h with refCounts := r.1, fields := r.2 }

/-- `FBArrayNewIndex` for a class -/
def newIndexElement (h : Heap) (i : Nat) (arg : LuaArg) : Option Heap :=
  (assign h.refCounts h.elements i arg).map fun r => { h with refCounts := r.1, elements := r.2 }

def dataContainerGc (h : Heap) (i : Nat) : Option Heap := do
  let data ← h.userdata[i]?
  let refCounts := if data ≠ 0 then release h.refCounts data else h.refCounts
  some { h with refCounts, userdata := h.userdata.eraseIdx i }

/-- Nothing holds the container. -/
def Unheld (h : Heap) (container : UInt64) : Prop :=
  container ∉ h.fields ∧ container ∉ h.elements ∧ container ∉ h.userdata ∧
    h.engine container = 0

instance (h : Heap) (container : UInt64) : Decidable (h.Unheld container) :=
  inferInstanceAs (Decidable (_ ∧ _))

/-- A new container is at an address that is not in use, and has one reference. -/
def dataContainerCreate (h : Heap) (container : UInt64) (fields : Nat) : Option Heap :=
  if container ≠ 0 ∧ h.Unheld container then
    let h := { h with
      refCounts := Function.update h.refCounts container 1
      fields := h.fields ++ List.replicate fields 0 }
    some (h.wrapDataContainer container)
  else
    none

def step (h : Heap) : Operation → Option Heap
  | .readField i => h.typeInfoIndex i
  | .readElement i => h.pushElement i
  | .writeField i arg => h.typeInfoNewIndex i arg
  | .writeElement i arg => h.newIndexElement i arg
  | .finalise i => h.dataContainerGc i
  | .create container fields => h.dataContainerCreate container fields

end Heap

end Kyber.Script.Containers
