import Kyber.Launcher.JoinServer

/-!
# Mods for the command line client (`mod_helper.dart`)

The client reads mods from their files. For a server it replaces the collections among them
by their members. The files that there are, and what the reader makes of one, are
parameters, and so are `dirname` and `join`.
-/

namespace Kyber.Cli

open Kyber.Collection Kyber.Collection.Frosty

structure ModFiles where
  existsSync : DartString → Bool
  /-- `ModReader(file, path).readMod()` -/
  readMod : DartString → Except DartError (Option FrostyMod)

section

variable (dirname : DartString → DartString) (join : DartString → DartString → DartString)

def getCollectionMods (m : FrostyMod) : List DartString :=
  if dirname m.filename = [0x2e] then m.mods.getD []
  else (m.mods.map fun mods => mods.map (join (dirname m.filename))).getD []

variable (files : ModFiles)

/-- The inner loop of `expandMods`. -/
def addMember (mods : List FrostyMod) (modPath : DartString) :
    Except DartError (List FrostyMod) := do
  if !files.existsSync modPath then return mods
  match ← files.readMod modPath with
  | none => return mods
  | some frostyMod => return mods ++ [frostyMod]

/-- The outer loop. -/
def addMod (mods : List FrostyMod) (m : FrostyMod) : Except DartError (List FrostyMod) :=
  if !m.isCollection then return mods ++ [m]
  else (getCollectionMods dirname join m).foldlM (addMember files) mods

/-- The list that is made has the name of the parameter, and the loop is over it. -/
def expandMods (_mods : List FrostyMod) : Except DartError (List FrostyMod) :=
  let mods := []
  mods.foldlM (addMod dirname join files) mods

end

end Kyber.Cli
