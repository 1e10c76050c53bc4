import Kyber.Lib.Blocks
import Kyber.Lib.Bytes
import Mathlib.Logic.Function.Basic

/-!
# Arrays and containers of the engine (`SDK.h`, `SDK.cpp`)

An `FBArray` points to its first element, in an allocation that has the number of elements
just before it. The SDK's template knows the type of the elements; here it is `FBArray<void*>`,
whose elements are pointers of eight bytes.

The memory of an array is the block that its pointer is in. An access outside of this is
undefined and ends in nothing. What the arena allocates has any content, which is an argument.

Containers are known by their addresses, and a null pointer is 0.
-/

namespace Kyber.Sdk

open Kyber.Lib

/-- A pointer into an allocation. -/
structure Place where
  block : List UInt8
  offset : Nat
  deriving DecidableEq, Repr

/-- `FBArray<void*>`, with none for a null `m_data`. -/
structure FBArray where
  data : Option Place
  deriving DecidableEq, Repr

/-- `emptyArrayBegin`: the fifth of eight words that are all zero. -/
def emptyArrayBegin : Place where
  block := List.replicate 32 0
  offset := 16

namespace FBArray

/-- What is `place` bytes from the first element on. -/
def read (array : FBArray) (place : Int) (n : Nat) : Option (List UInt8) :=
  match array.data with
  | none => if n = 0 then some [] else none
  | some p => readAt p.block (p.offset + place) n

def write (array : FBArray) (place : Int) (bytes : List UInt8) : Option FBArray :=
  match array.data with
  | none => none
  | some p =>
      (writeAt p.block (p.offset + place) bytes).map fun block => ⟨some { p with block }⟩

def size (array : FBArray) : Option UInt32 :=
  match array.data with
  | none => some 0
  | some p => (readAt p.block (p.offset - 4) 4).map fun bytes => UInt32.ofNat (leNat bytes)

/-- `operator[]`, read -/
def element (array : FBArray) (index : UInt32) : Option UInt64 :=
  (array.read (8 * index.toNat : Nat) 8).map fun bytes => UInt64.ofNat (leNat bytes)

/-- `operator[]`, written -/
def setElement (array : FBArray) (index : UInt32) (value : UInt64) : Option FBArray :=
  array.write (8 * index.toNat : Nat) (leBytes 8 value.toNat)

/-- The allocation has a header of eight bytes. That of the old elements is not freed. -/
def extend (array : FBArray) (memory : Nat → UInt8) (amount : UInt32) : Option FBArray := do
  let prevSize ← array.size
  let size := prevSize + amount
  let dest := (List.range (8 + 8 * size.toNat)).map memory
  let old ← array.read 0 (8 * prevSize.toNat)
  let dest ← writeAt dest 8 old
  let dest ← writeAt dest (8 + 8 * prevSize.toNat : Nat) (List.replicate (8 * amount.toNat) 0)
  let dest ← writeAt dest 4 (leBytes 4 size.toNat)
  some ⟨some { block := dest, offset := 8 }⟩

end FBArray

/-! ## Reference counts -/

abbrev RefCounts := UInt64 → UInt32

def addRef (counts : RefCounts) (container : UInt64) : RefCounts :=
  Function.update counts container (counts container + 1)

/-- `release` returns before it has taken anything off the count. -/
def release (counts : RefCounts) (_ : UInt64) : RefCounts := counts

end Kyber.Sdk
