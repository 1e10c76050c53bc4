import Kyber.Api.Statistics

/-!
# A player's statistics on the server (`PersistenceManager.cpp`, `PersistenceDatabase.h`)

The game keeps the statistics of a player in a storage, whose template gives each name an offset
into the values. What the API has stored is written over the values when the player joins, and the
values that differ from their reference are sent to the API when the player leaves.

The template's methods are the game's. `φ` is the type of a value, and `changed` is the test of a
value against its reference, by which values that are closer than a millionth are the same.
-/

namespace Kyber.Persistence

open Kyber.Api

structure Value (φ : Type) where
  current : φ
  reference : φ
  original : φ
  deriving DecidableEq, Repr

/-- The offset of a name that a template does not know. -/
def noOffset : UInt32 := 0xFFFFFFFF

/-- `names` are `GetName` of the numbers below `GetCount`. -/
structure PersistentStorageTemplate where
  names : List String
  getOffset : String → UInt32
  known : ∀ name ∈ names, getOffset name ≠ noOffset

structure PersistentStorage (φ : Type) where
  template : PersistentStorageTemplate
  values : List (Value φ)
  valid : ∀ name, template.getOffset name ≠ noOffset →
    (template.getOffset name).toNat < values.length

/-- What the extents of a `ServerPlayer` have for the statistics. `userId` is the text of its
`m_onlineId`. -/
structure ServerPlayer (φ : Type) where
  userId : String
  isAIPlayer : Bool
  isSpectator : Bool
  storage : PersistentStorage φ

section

variable {φ : Type}

namespace PersistentStorage

/-- `m_values[GetOffset(name)]`, which is there for the names that the template knows. -/
def value? (storage : PersistentStorage φ) (name : String) : Option (Value φ) :=
  storage.values[(storage.template.getOffset name).toNat]?

/-- The loop of `ApplyPlayerStats` on one entry. -/
def setCurrent (storage : PersistentStorage φ) (name : String) (v : φ) : PersistentStorage φ :=
  let offset := storage.template.getOffset name
  if offset = noOffset then
    storage
  else
    { storage with
      values := storage.values.modify offset.toNat ({ · with current := v })
      valid := fun name hname => by
        rw [List.length_modify]
        exact storage.valid name hname }

/-- What the game does to the values. -/
def play (storage : PersistentStorage φ) (f : Nat → Value φ → Value φ) : PersistentStorage φ :=
  { storage with
    values := storage.values.mapIdx f
    valid := fun name hname => by
      rw [List.length_mapIdx]
      exact storage.valid name hname }

end PersistentStorage

/-- `ApplyPlayerStats`. -/
def applyPlayerStats (player : ServerPlayer φ) (stats : UserStats φ) : ServerPlayer φ :=
  { player with
    storage := stats.toList.foldl (fun storage entry => storage.setCurrent entry.1 entry.2)
      player.storage }

variable (changed : φ → φ → Bool)

/-- The loop of `ExtractPlayerStats` on one name. -/
def extractStat (storage : PersistentStorage φ) (stats : UserStats φ) (name : String) :
    UserStats φ :=
  match storage.value? name with
  | none => stats
  | some value =>
      if changed value.current value.reference then stats.insert name value.current else stats

/-- `ExtractPlayerStats`. -/
def extractPlayerStats (player : ServerPlayer φ) : UserStats φ :=
  if player.isAIPlayer || player.isSpectator then
    {}
  else
    player.storage.template.names.foldl (extractStat changed player.storage) {}

/-- `SavePlayerStats`: the request that is sent. -/
def savePlayerStats (player : ServerPlayer φ) : Option (UpdateStatsRequest φ) :=
  if player.isAIPlayer || player.isSpectator then
    none
  else
    some { source := .kyber, user := player.userId, stats := extractPlayerStats changed player }

end

end Kyber.Persistence
