import Kyber.Lib.Forests

/-!
# Entity owners and busses (`SDK.cpp`)

The engine keeps entities in lists, one for each owner, and the owners in trees: an owner
has a pointer to its first child and one to its next sibling. `EntityOwner` in the SDK
lays the structure over the engine's memory and walks it.

A null pointer is none. The functions that call themselves have fuel; they end in
nothing when it is used up. What destroys the entities of one owner is the engine's, and
is an argument.
-/

namespace Kyber.Sdk

open Kyber.Lib

abbrev Ptr := UInt64

structure NativeEntity where
  address : Ptr
  entityBus : Option Ptr
  deriving DecidableEq, Repr

structure EntityOwner where
  /-- the list at `0x10` -/
  entities : List NativeEntity
  firstChild : Option Ptr
  nextSibling : Option Ptr
  deriving DecidableEq, Repr

abbrev Memory := Ptr → EntityOwner

inductive Realm
  | client
  | server
  | clientAndServer
  | none
  | pipeline
  deriving DecidableEq, Repr

namespace EntityOwner

def getOwnedEntities (this : EntityOwner) (bus : Option Ptr) : List NativeEntity :=
  this.entities.filter fun entity => !(bus ≠ none && entity.entityBus ≠ bus)

def getOwnedEntitiesRecursively (m : Memory) : Nat → Ptr → Option (List NativeEntity)
  | 0, _ => none
  | fuel + 1, this => do
      let ownedEntities := (m this).getOwnedEntities none
      let childEntities ←
        match (m this).firstChild with
        | none => some []
        | some child => getOwnedEntitiesRecursively m fuel child
      let siblingEntities ←
        match (m this).nextSibling with
        | none => some []
        | some sibling => getOwnedEntitiesRecursively m fuel sibling
      return ownedEntities ++ childEntities ++ siblingEntities

/-- The memory afterwards, and the owners whose `DestroyOwnedEntities` was called. -/
def destroyOwnedEntitiesRecursively (destroyOwnedEntities : Ptr → Realm → Memory → Memory)
    (realm : Realm) : Nat → Ptr → Memory → Option (Memory × List Ptr)
  | 0, _, _ => none
  | fuel + 1, this, m => do
      let m := destroyOwnedEntities this realm m
      let (m, children) ←
        match (m this).firstChild with
        | none => some (m, [])
        | some child =>
            destroyOwnedEntitiesRecursively destroyOwnedEntities realm fuel child m
      let (m, siblings) ←
        match (m this).nextSibling with
        | none => some (m, [])
        | some sibling =>
            destroyOwnedEntitiesRecursively destroyOwnedEntities realm fuel sibling m
      return (m, this :: (children ++ siblings))

end EntityOwner

end Kyber.Sdk

/-!
## Entity busses

The busses of the engine are in trees as well. Of a bus only the links to its first child and
to its next sibling are read.
-/

namespace Kyber.Sdk

structure EntityBus where
  firstChild : Option Ptr
  nextSibling : Option Ptr
  deriving DecidableEq, Repr

namespace EntityBus

abbrev Memory := Ptr → EntityBus

/-- The loop over the siblings, for at most this many rounds. -/
def childLoop (m : Memory) (getAllChildBusses : Ptr → Option (List Ptr)) :
    Nat → Option Ptr → List Ptr → Option (List Ptr)
  | _, none, busses => some busses
  | 0, some _, _ => none
  | rounds + 1, some child, busses => do
      let busses := busses ++ [child]
      let childBusses ← getAllChildBusses child
      childLoop m getAllChildBusses rounds (m child).nextSibling (busses ++ childBusses)

/-- `GetAllChildBusses`, with fuel for the calls and for the rounds of each. -/
def getAllChildBusses (m : Memory) : Nat → Ptr → Option (List Ptr)
  | 0, _ => none
  | fuel + 1, this => childLoop m (getAllChildBusses m fuel) fuel (m this).firstChild []

end EntityBus

end Kyber.Sdk
