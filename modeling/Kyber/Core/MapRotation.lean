import Mathlib.Data.List.Basic

/-!
# The map rotation of the game server (`Settings.h`)

`GetNextEntry` returns a reference into the vector of entries, given here by its index. An index
outside of the vector is undefined and ends in nothing. `m_current` has no value before the
first `Reset`: a rotation may begin with any.
-/

namespace Kyber.Core

structure MapRotationEntry where
  level : String
  mode : String
  deriving DecidableEq, Repr

structure MapRotation where
  entries : List MapRotationEntry
  current : UInt16
  deriving DecidableEq, Repr

namespace MapRotation

def getNextEntry (m : MapRotation) : Option (Nat × MapRotation) :=
  let current := if m.current.toNat + 1 > m.entries.length then 0 else m.current
  if current.toNat < m.entries.length then
    some (current.toNat, { m with current := current + 1 })
  else
    none

def reset (_ : MapRotation) : MapRotation where
  entries := []
  current := 0

def addEntry (m : MapRotation) (entry : MapRotationEntry) : MapRotation :=
  { m with entries := m.entries ++ [entry] }

inductive Operation
  | getNextEntry
  | reset
  | addEntry (entry : MapRotationEntry)
  deriving DecidableEq, Repr

def step (m : MapRotation) : Operation → Option MapRotation
  | .getNextEntry => m.getNextEntry.map Prod.snd
  | .reset => some m.reset
  | .addEntry entry => some (m.addEntry entry)

end MapRotation

end Kyber.Core
