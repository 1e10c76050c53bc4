import Kyber.Collection.FrostyCollection

/-!
# Joining a server (`kyber_server_helper.dart`, `mod_collection_cubit.dart`)

A server lists the mods that its players need, by name and version. The browser looks
whether they are installed (`server_browser_cubit.dart`, `mod_helper.dart`), the dialog
offers the collections that may be used (`join_server_dialog.dart`), and `joinServer` makes
of both the list of files for the game. Each of the three looks the mods up on its own.

The service has read every file in the directory of the mods once, under its path there,
so that no two mods have the same file name, and exactly the collections have a list of
members. Mods that `ModService` hides are kept apart. `dirname` and `join` of the package
`path` are parameters. `==` of two mods also compares where their data is in the file; for
mods of different files the file name decides.

What `joinServer` does besides, the address, the proxy and the token, is left out.
-/

namespace Kyber.Join

open Kyber.Collection Kyber.Collection.Frosty

inductive JoinError
  /-- `firstWhere` finds nothing -/
  | stateError
  /-- `!` on null -/
  | nullCheck
  | exception (message : DartString)
  deriving DecidableEq, Repr

structure ServerMod where
  name : DartString
  version : DartString
  link : DartString
  deriving DecidableEq, Repr

structure Server where
  id : DartString
  name : DartString
  mods : List ServerMod
  deriving DecidableEq, Repr

/-- What `ModService` has read. -/
structure Installed where
  mods : List FrostyMod
  hiddenMods : List FrostyMod
  nodup : ((mods ++ hiddenMods).map (·.filename)).Nodup
  isCollection : ∀ m ∈ mods ++ hiddenMods, m.isCollection = m.mods.isSome

/-- Both, as `getLocalMods` looks through them. -/
def Installed.all (installed : Installed) : List FrostyMod := installed.mods ++ installed.hiddenMods

/-! ## Mods -/

/-- `gameplay`, `maps` and `map` -/
def kRequiredCategories : List DartString :=
  [[0x67, 0x61, 0x6d, 0x65, 0x70, 0x6c, 0x61, 0x79], [0x6d, 0x61, 0x70, 0x73], [0x6d, 0x61, 0x70]]

/-- `toLowerCase`, as far as the letters of the categories are concerned: no character other
than the capital letters is one of them in lower case. -/
def toLowerCase (s : DartString) : DartString :=
  s.map fun u => if 0x41 ≤ u ∧ u ≤ 0x5a then u + 0x20 else u

/-- `name (version)` -/
def kyberString (name version : DartString) : DartString :=
  name ++ [0x20, 0x28] ++ version ++ [0x29]

section

variable (m : FrostyMod)

def isGameplay : Bool := kRequiredCategories.contains (toLowerCase m.details.category)

def toKyberString : DartString := kyberString m.details.name m.details.version

def toCollectionMod : CollectionMod where
  name := m.details.name
  version := m.details.version
  link := m.details.link.getD []
  filename := some m.filename
  mods := m.mods
  isCollection := m.isCollection

/-- `==` -/
def equals (other : FrostyMod) : Bool :=
  m.version == other.version && m.gameVersion == other.gameVersion &&
    m.filename == other.filename && m.size == other.size &&
    m.isCollection == other.isCollection && m.mods == other.mods && m.details == other.details

end

/-- What `==` of `CollectionMod` compares. -/
def identity (mod : CollectionMod) : DartString × DartString × DartString :=
  (mod.name, mod.version, mod.link)

def hasFilename (filename : DartString) (m : FrostyMod) : Bool := m.filename == filename

def hasName (name version : DartString) (m : FrostyMod) : Bool :=
  m.details.name == name && m.details.version == version

section

variable (dirname : DartString → DartString) (join : DartString → DartString → DartString)

/-- The files of the members of a collection. -/
def getMods (m : FrostyMod) : Option (List DartString) :=
  if dirname m.filename = [0x2e] then m.mods
  else m.mods.map fun mods => mods.map (join (dirname m.filename))

/-- `getMods()!` -/
def checkedMods (m : FrostyMod) : Except JoinError (List DartString) :=
  match getMods dirname join m with
  | some mods => .ok mods
  | none => .error .nullCheck

variable (installed : Installed)

/-! ## The installed mods (`mod_helper.dart`) -/

/-- The mods with these file names, and null where there is none. -/
def members (mods : List FrostyMod) (names : List DartString) : List (Option FrostyMod) :=
  names.map fun name => mods.find? (hasFilename name)

def isCorrupted (m : FrostyMod) : Except JoinError Bool := do
  return (members installed.mods (← checkedMods dirname join m)).contains none

/-- The loop of `isInstalled`. -/
def isInstalledIn (name version : DartString) : List FrostyMod → Except JoinError Bool
  | [] => return false
  | m :: rest => do
      if hasName name version m then
        if !m.isCollection then return true
        if !(← isCorrupted dirname join installed m) then return true
      isInstalledIn name version rest

def isInstalled (name version : DartString) : Except JoinError Bool :=
  isInstalledIn dirname join installed name version installed.mods

/-- The `every` of `hasAllRequiredMods`. -/
def hasAllRequiredMods (server : Server) : Except JoinError Bool :=
  server.mods.allM fun e => isInstalled dirname join installed e.name e.version

/-! ## The mods of a collection (`mod_collection_cubit.dart`) -/

/-- The loop body of `getLocalMods`. -/
def localMod (mod : CollectionMod) : Option FrostyMod :=
  (mod.filename.bind fun filename => installed.all.find? (hasFilename filename)).or
    (installed.all.find? (hasName mod.name mod.version))

/-- The collections that are expanded. -/
def isExpanded (expandGameplayCollections : Bool) : Option FrostyMod → Bool
  | some m => m.isCollection && (expandGameplayCollections || !isGameplay m)
  | none => false

/-- `==` of two mods or nulls. -/
def equalsNullable : Option FrostyMod → Option FrostyMod → Bool
  | some m, some other => equals m other
  | none, none => true
  | _, _ => false

/-- The members of a collection are put in front of the first mod that equals it. -/
def expandCollection (mods : List (Option FrostyMod)) (collection : Option FrostyMod) :
    List (Option FrostyMod) :=
  match collection.bind (getMods dirname join) with
  | none => mods
  | some modPaths =>
      let collectionIndex := mods.findIdx (equalsNullable collection)
      mods.take collectionIndex ++ members installed.all modPaths ++ mods.drop collectionIndex

def getLocalMods (onlyGameplay expandCollections expandGameplayCollections : Bool)
    (collection : ModCollectionMetaData) : List (Option FrostyMod) :=
  let mods := collection.mods.map (localMod installed)
  let mods :=
    if expandCollections then
      (mods.filter (isExpanded expandGameplayCollections)).foldl
        (expandCollection dirname join installed) mods
    else mods
  if onlyGameplay then mods.filter fun m => m.any isGameplay else mods

def containsGameplayMods (collection : ModCollectionMetaData) : Bool :=
  !(getLocalMods dirname join installed true false true collection).isEmpty

/-- The loop of `getModPaths`. -/
def pathsOf (excludeCollectionMods : Bool) : List FrostyMod → Except JoinError (List DartString)
  | [] => return []
  | m :: rest => do
      let paths ←
        if !m.isCollection || excludeCollectionMods then pure [m.filename]
        else checkedMods dirname join m
      return paths ++ (← pathsOf excludeCollectionMods rest)

/-- `no-mods` -/
def noModsId : DartString := [0x6e, 0x6f, 0x2d, 0x6d, 0x6f, 0x64, 0x73]

def getModPaths (excludeCollectionMods : Bool) (collection : ModCollectionMetaData) :
    Except JoinError (List DartString) :=
  if collection.localId = noModsId then return []
  else
    pathsOf dirname join excludeCollectionMods
      ((getLocalMods dirname join installed false false true collection).filterMap id)

/-- `ModCollectionMetaData.noMods` -/
def noMods : ModCollectionMetaData where
  localId := noModsId
  title := [0x4e, 0x6f, 0x20, 0x4d, 0x6f, 0x64, 0x73]
  mods := []

/-! ## The dialog (`join_server_dialog.dart`) -/

/-- The gameplay mods by which a collection is compared with a server. -/
def gameplayMods (collection : ModCollectionMetaData) : List FrostyMod :=
  (getLocalMods dirname join installed true true false collection).filterMap id

def serverMods (server : Server) : List CollectionMod :=
  server.mods.map fun e => { name := e.name, version := e.version, link := e.link }

/-- `ListEquality` -/
def sameMods (server : Server) (collection : ModCollectionMetaData) : Bool :=
  ((gameplayMods dirname join installed collection).map toCollectionMod).map identity ==
    (serverMods server).map identity

/-- The collections that the dialog offers. -/
def offered (server : Server) (collectionBox : List ModCollectionMetaData) :
    List ModCollectionMetaData :=
  collectionBox.filter fun collection =>
    sameMods dirname join installed server collection || collection.isCosmetic ||
      (gameplayMods dirname join installed collection).isEmpty

/-! ## `joinServer` -/

/-- `"name" is corrupted. Please reinstall it` -/
def corruptedMessage (name : DartString) : DartString :=
  [0x22] ++ name ++ [0x22, 0x20, 0x69, 0x73, 0x20, 0x63, 0x6f, 0x72, 0x72, 0x75, 0x70, 0x74, 0x65,
    0x64, 0x2e, 0x20, 0x50, 0x6c, 0x65, 0x61, 0x73, 0x65, 0x20, 0x72, 0x65, 0x69, 0x6e, 0x73, 0x74,
    0x61, 0x6c, 0x6c, 0x20, 0x69, 0x74]

/-- The first installed mod that is written like the mod of the server. -/
def firstWhere (e : ServerMod) : Option FrostyMod :=
  installed.mods.find? fun m => toKyberString m == kyberString e.name e.version

/-- What is added for a mod. -/
def added (m : FrostyMod) : Except JoinError (List CollectionMod) :=
  if m.isCollection then do
    let cMods := members installed.mods (← checkedMods dirname join m)
    if cMods.contains none then throw (.exception (corruptedMessage m.details.name))
    return (cMods.filterMap id).map toCollectionMod
  else return [toCollectionMod m]

/-- The loop over the mods of the server. -/
def collectionMods : List ServerMod → Except JoinError (List CollectionMod)
  | [] => return []
  | e :: rest => do
      match firstWhere installed e with
      | none => throw .stateError
      | some m => return (← added dirname join installed m) ++ (← collectionMods rest)

/-- `joinServer` with the collection of the dialog, if there is one: the files for the game. -/
def joinServer (server : Server) (selectedCollection : Option ModCollectionMetaData) :
    Except JoinError (List DartString) := do
  let collectionMods ← collectionMods dirname join installed server.mods
  let mods :=
    match selectedCollection with
    | none => []
    | some selected =>
        (if containsGameplayMods dirname join installed selected then [] else collectionMods) ++
          selected.mods
  let tmpCollection : ModCollectionMetaData := { title := server.name, mods, localId := server.id }
  getModPaths dirname join installed false tmpCollection

end

end Kyber.Join
