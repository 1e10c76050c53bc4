import Kyber.Launcher.JoinServer
import Kyber.Launcher.Reordering

/-!
# Modes and maps of mods (`level_declaration_service.dart`, `map_rotation_cubit.dart`)

A mod may declare modes and maps, the modes that a map supports, and other names for modes. A
mode may be mapped to another one, in whose place it is played. What a collection has is
looked up in the entries of its mods, in their order. Images are left out.
-/

namespace Kyber.Launcher.Levels

open Kyber.Collection (ModCollectionMetaData)
open Kyber.Join (Installed JoinError getModPaths)

structure CustomMode where
  name : DartString
  mode : DartString
  maxPlayers : Int

structure CustomMap where
  name : DartString
  map : DartString
  supportedModes : List DartString

structure ModEntry where
  maps : List CustomMap
  modes : List CustomMode
  modeMappings : List (DartString × DartString)
  mapNameOverrides : List (DartString × DartString)

/-! ## Lookups in the entries of a collection -/

section

variable (entries : List ModEntry)

/-- `getMapByMode` -/
def findMap (map mode : DartString) : Option KyberMap :=
  entries.findSome? fun modEntry => modEntry.maps.findSome? fun customMap =>
    if customMap.map ≠ map ∨ mode ∉ customMap.supportedModes then none
    else some { name := customMap.name, map := customMap.map, mode := some mode, isCustom := true }

/-- The inner loop of `getMapsForMode`. -/
def supportedMode (modEntry : ModEntry) (mode : DartString) : List DartString → Option DartString
  | [] => none
  | entry :: rest =>
      if entry = mode then some mode
      else if modEntry.modeMappings.lookup entry = some mode then some entry
      else supportedMode modEntry mode rest

def mapForMode (modEntry : ModEntry) (mode : DartString) (customMap : CustomMap) :
    Option KyberMap :=
  let mappedModes := customMap.supportedModes.map fun e => (modEntry.modeMappings.lookup e).getD e
  if mode ∉ mappedModes then none
  else some {
    name := customMap.name
    map := customMap.map
    mode := supportedMode modEntry mode customMap.supportedModes
    isCustom := true }

/-- `getMapsForMode` -/
def mapsForMode (mode : DartString) : List KyberMap :=
  entries.flatMap fun modEntry => modEntry.maps.filterMap (mapForMode modEntry mode)

/-- The loop body of `getModeName`. -/
def nextName (mode : DartString) (modeName : Option DartString) (modEntry : ModEntry) :
    Option DartString :=
  let modeName := (modEntry.mapNameOverrides.lookup mode).or modeName
  modEntry.modes.foldl
    (fun modeName customMode => if customMode.mode = mode then some customMode.name else modeName)
    modeName

/-- `getModeName` -/
def modeName (mode : DartString) : Option DartString := entries.foldl (nextName mode) none

def listedMode (modEntry : ModEntry) (customMode : CustomMode) : Option Mode :=
  if (modEntry.modeMappings.lookup customMode.mode).isSome then none
  else some {
    name := customMode.name
    mode := customMode.mode
    maxPlayers := customMode.maxPlayers
    alternativeModes := (modEntry.modeMappings.filter fun e => e.2 == customMode.mode).map (·.1)
    maps := []
    isCustom := true }

def renamed (modEntry : ModEntry) (entry : Mode) : Mode :=
  match modEntry.mapNameOverrides.lookup entry.mode with
  | some name => { entry with name }
  | none => entry

/-- The loop body of `getModesForCollection`. -/
def nextModes (modeList : List Mode) (modEntry : ModEntry) : List Mode :=
  (modeList ++ modEntry.modes.filterMap (listedMode modEntry)).map (renamed modEntry)

def defaultModes : List Mode :=
  modes.map fun mode =>
    { name := mode.name, mode := mode.mode, maxPlayers := mode.maxPlayers, maps := [] }

/-- `getModesForCollection` -/
def modeList (includeDefaults : Bool) : List Mode :=
  entries.foldl nextModes (if includeDefaults then defaultModes else [])

end

/-! ## The service -/

section

variable (dirname : DartString → DartString) (join : DartString → DartString → DartString)
  (installed : Installed) (modEntries : DartString → Option ModEntry)
  (collection : ModCollectionMetaData)

/-- The entries of the mods that have one. -/
def entriesOf : Except JoinError (List ModEntry) := do
  let filenames ← getModPaths dirname join installed false collection
  return filenames.filterMap modEntries

def getMapByMode (map mode : DartString) : Except JoinError (Option KyberMap) := do
  return findMap (← entriesOf dirname join installed modEntries collection) map mode

def getMapsForMode (mode : DartString) : Except JoinError (List KyberMap) := do
  return mapsForMode (← entriesOf dirname join installed modEntries collection) mode

def getModeName (mode : DartString) : Except JoinError (Option DartString) := do
  return modeName (← entriesOf dirname join installed modEntries collection) mode

def getModesForCollection (includeDefaults : Bool) : Except JoinError (List Mode) := do
  return modeList (← entriesOf dirname join installed modEntries collection) includeDefaults

/-! ## `MapRotationCubit.addGameMode` -/

/-- `map.mode!` -/
def rotationEntry (map : KyberMap) : Except JoinError MapRotationEntry :=
  match map.mode with
  | some mode => .ok { map := map.map, mode, isCustom := true }
  | none => .error .nullCheck

def addGameMode (mode : Mode) (state : MapRotationState) : Except JoinError MapRotationState := do
  let customModes ← getModesForCollection dirname join installed modEntries collection false
  let customMode := (customModes.find? fun e => e.mode == mode.mode).getD mode
  if customMode.isCustom then
    let maps ← getMapsForMode dirname join installed modEntries collection customMode.mode
    return { maps := state.maps ++ (← maps.mapM rotationEntry) }
  else
    match modes.find? fun e => e.mode == customMode.mode with
    | some mode =>
        return { maps := state.maps ++ mode.maps.map fun map => { map, mode := customMode.mode } }
    | none => throw .stateError

end

end Kyber.Launcher.Levels
