import Kyber.ModLoader.Types

/-!
# DbObject (`DbObject.h`, `DbObject.cpp`)

The self-describing tree that a bundle's chunk meta is stored as: a flag byte
with the type and whether a name follows, the name, and a payload whose length
is given by the type. Lists and maps carry the byte length of their items as a
base-128 number and are closed by a zero byte that the length counts.

`Save` builds every node in a buffer of its own, so the model of it is a fold
of buffers into each other and inherits the buffer's 32-bit limits. `Load`
recurses on what it reads; its recursion depth is bounded here by the bytes
that are left, and a container's loop by the size it was told, since every item
takes at least its flag byte.

Two C++ details are pinned down by the platform. `long` has 32 bits on Win64,
and where a read position is compared with one, both sides are converted to
`unsigned long`; so a container size is modelled as its 32-bit pattern and
compared unsigned. A shift of an `int` by 32 or more uses the low five bits of
the count, as the x86 instruction does.
-/

namespace Kyber.ModLoader

open Kyber.Lib

/-- `DbType`. The five low bits of the flag byte can spell numbers that name no
type. -/
inductive DbType
  | invalid | list | object | boolean | string | int | long | float | double
  | guid | sha1 | byteArray
  | unknown (code : UInt8)
  deriving DecidableEq, Repr

def DbType.toByte : DbType → UInt8
  | .invalid => 0
  | .list => 1
  | .object => 2
  | .boolean => 6
  | .string => 7
  | .int => 8
  | .long => 9
  | .float => 11
  | .double => 12
  | .guid => 15
  | .sha1 => 16
  | .byteArray => 19
  | .unknown code => code

def DbType.ofByte (b : UInt8) : DbType :=
  if b = 0 then .invalid
  else if b = 1 then .list
  else if b = 2 then .object
  else if b = 6 then .boolean
  else if b = 7 then .string
  else if b = 8 then .int
  else if b = 9 then .long
  else if b = 11 then .float
  else if b = 12 then .double
  else if b = 15 then .guid
  else if b = 16 then .sha1
  else if b = 19 then .byteArray
  else .unknown b

/-- `DbObject`, that is its `DbValue` variant. The two floating-point
alternatives are kept as bit patterns. A `DbMap` is a `std::map`, given by its
entries in key order. -/
inductive DbObject
  | null
  | boolean (value : Bool)
  | int (value : UInt32)
  | long (value : UInt64)
  | float (bits : UInt32)
  | double (bits : UInt64)
  | string (value : ByteString)
  | byteArray (value : List UInt8)
  | guid (value : Guid)
  | sha1 (value : Sha1)
  | list (items : List DbObject)
  | map (entries : List (ByteString × DbObject))

/-- `GetType`. -/
def DbObject.getType : DbObject → DbType
  | .null => .invalid
  | .boolean _ => .boolean
  | .int _ => .int
  | .long _ => .long
  | .float _ => .float
  | .double _ => .double
  | .string _ => .string
  | .byteArray _ => .byteArray
  | .guid _ => .guid
  | .sha1 _ => .sha1
  | .list _ => .list
  | .map _ => .object

/-- `std::map::emplace`: an entry whose key is there already is dropped. -/
def emplace {V : Type} (key : ByteString) (value : V) :
    List (ByteString × V) → List (ByteString × V)
  | [] => [(key, value)]
  | (k, v) :: rest =>
      match compare key k with
      | .lt => (key, value) :: (k, v) :: rest
      | .eq => (k, v) :: rest
      | .gt => (k, v) :: emplace key value rest

/-! ## The seven-bit integers -/

/-- The loop of `write7BitEncodedInt` and `write7BitEncodedLong`. -/
def write7BitEncoded (value : Nat) : BufM Unit :=
  if value < 0x80 then put (UInt8.ofNat value)
  else do
    put (UInt8.ofNat (value ||| 0x80))
    write7BitEncoded (value >>> 7)
termination_by value
decreasing_by rw [Nat.shiftRight_eq_div_pow]; omega

def write7BitEncodedInt (value : UInt32) : BufM Unit := write7BitEncoded value.toNat

def write7BitEncodedLong (value : UInt64) : BufM Unit := write7BitEncoded value.toNat

/-- The loop of `read7BitEncodedInt` and `read7BitEncodedLong`, whose result is
32 bits wide in both. A byte is read in every round and reads past the end
answer zero, so the bytes left and one more bound the rounds. -/
def read7BitLoop : Nat → UInt32 → Nat → BufM UInt32
  | 0, _, _ => throw .fuel
  | n + 1, result, i => do
      let b ← getByte
      let result := result ||| (b.toUInt32 &&& 127) <<< UInt32.ofNat i
      if b >>> 7 = 0 then return result else read7BitLoop n result (i + 7)

def read7BitEncodedInt : BufM UInt32 := do
  read7BitLoop ((← get).rest.length + 1) 0 0

def read7BitEncodedLong : BufM UInt32 := do
  read7BitLoop ((← get).rest.length + 1) 0 0

/-! ## Save -/

/-- Everything `Save(name)` does around its switch: a buffer of its own, the
flag byte, the name unless it is empty, and the payload. -/
def saveWith (name : ByteString) (type : DbType) (payload : BufM Unit) :
    Except Fault (List UInt8) := do
  let body : BufM Unit := do
    let dbFlags : UInt8 := if name.isEmpty then 0x80 else 0x00
    put (dbFlags ||| type.toByte)
    if dbFlags &&& 0x80 = 0 then putNullTerminatedString name
    payload
  let ((), buf) ← body.run {}
  return buf.buf

/-- The container cases: the items go through a buffer of their own, and their
size is written with the closing zero counted. -/
def saveContainer (items : BufM Unit) : BufM Unit := do
  let ((), subWriter) ← items.run {}
  let buffer := subWriter.buf
  write7BitEncodedLong (UInt64.ofNat (buffer.length + 1))
  putBytes buffer buffer.length
  put 0x00

mutual

/-- The switch of `Save`. -/
def DbObject.savePayload : DbObject → BufM Unit
  | .boolean val => put (if val then 0x01 else 0x00)
  | .string str => do
      write7BitEncodedInt (UInt32.ofNat str.length)
      putBytes str str.length
  | .int val => putInt val
  | .list items => saveContainer (saveItems items)
  | .map entries => saveContainer (saveEntries entries)
  | .null | .long _ | .float _ | .double _ | .byteArray _ | .guid _ | .sha1 _ =>
      throw .unimplemented

def saveItems : List DbObject → BufM Unit
  | [] => return ()
  | item :: items => do
      let buffer ← saveWith [] item.getType item.savePayload
      putBytes buffer buffer.length
      saveItems items

def saveEntries : List (ByteString × DbObject) → BufM Unit
  | [] => return ()
  | (key, val) :: entries => do
      let buffer ← saveWith key val.getType val.savePayload
      putBytes buffer buffer.length
      saveEntries entries

end

/-- `Save(name)`. -/
def DbObject.save (obj : DbObject) (name : ByteString) : Except Fault (List UInt8) :=
  saveWith name obj.getType obj.savePayload

/-! ## Load -/

/-- The loop of the two container cases. `item` is one nested `Load`, which
answers no object at the closing zero. -/
def loadItems (item : BufM (Option (ByteString × DbObject))) (offset size : Nat) :
    Nat → List (ByteString × DbObject) → BufM (List (ByteString × DbObject))
  | 0, values => do
      if (← getReadPos) - offset < size then throw .fuel else return values
  | n + 1, values => do
      if (← getReadPos) - offset < size then
        match ← item with
        | none => return values
        | some value => loadItems item offset size n (values ++ [value])
      else
        return values

/-- The switch of `Load`. -/
def loadPayload (item : BufM (Option (ByteString × DbObject))) :
    DbType → BufM (Option DbObject)
  | .list => do
      let size ← read7BitEncodedLong
      let offset ← getReadPos
      let values ← loadItems item offset size.toNat size.toNat []
      return some (.list (values.map Prod.snd))
  | .object => do
      let size ← read7BitEncodedLong
      let offset ← getReadPos
      let values ← loadItems item offset size.toNat size.toNat []
      return some (.map (values.foldl (fun m e => emplace e.1 e.2 m) []))
  | .boolean => return some (.boolean ((← getByte) == 1))
  | .string => do
      let size ← read7BitEncodedInt
      -- `new char[size + 1]` with a 32-bit `long`
      if size.toNat + 1 < 2 ^ 31 then
        let data ← getBytes size.toNat
        return some (.string (cStr data))
      else
        throw .overflow
  | .int => return some (.int (← getInt))
  | .long => return some (.long (← getLong))
  | .float => return some (.float (← getInt))
  | .double => return some (.double (← getLong))
  | .guid | .sha1 | .byteArray => throw .unimplemented
  | .invalid | .unknown _ => return none

/-- A nested call, as the loop sees it. -/
def nestedItem (nested : BufM (Option DbObject × ByteString)) :
    BufM (Option (ByteString × DbObject)) := do
  let (subValue, name) ← nested
  return subValue.map fun value => (name, value)

/-- `Load(buf, outputName)` to a given recursion depth: the object, or none for
`nullptr`, and what `outputName` holds afterwards. -/
def DbObject.loadTo : Nat → ByteString → BufM (Option DbObject × ByteString)
  | 0, _ => throw .fuel
  | depth + 1, outputName => do
      let flags ← getByte
      let type := DbType.ofByte (flags &&& 0x1F)
      if type = .invalid then
        return (none, outputName)
      let outputName ← if flags &&& 0x80 = 0 then getNullTerminatedString
        else pure outputName
      -- A nested call starts from an empty name.
      let obj ← loadPayload (nestedItem (DbObject.loadTo depth [])) type
      return (obj, outputName)

/-- `Load(buf, outputName)`. A nested call starts behind the flag byte of the
call that made it, so the bytes left and one more bound the depth. -/
def DbObject.load (outputName : ByteString) : BufM (Option DbObject × ByteString) := do
  DbObject.loadTo ((← get).rest.length + 1) outputName

end Kyber.ModLoader
