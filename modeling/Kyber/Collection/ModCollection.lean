import Kyber.Lib.Bytes
import Kyber.Lib.Streams
import Kyber.Lib.Keyed

/-!
# Mod collections (`mod_collection.dart`, `byte_writer.dart`, `byte_reader.dart`)

The metadata of a mod collection as the launcher writes it to a file. A Dart string
is its UTF-16 code units, and the writer stores each of them as one byte of a
`Uint8List`, which keeps the low eight bits; the reader makes a code unit of each
byte. The writer's buffer has a fixed size, and a write past its end throws.

`basename` of the package `path` is a parameter. The fields that are not part of the
format, icons and file data, are left out.
-/

namespace Kyber.Collection

open Kyber.Lib

/-- Code units. -/
abbrev DartString := List UInt16

inductive DartError
  | rangeError
  | formatException
  | exception (message : String)
  deriving DecidableEq, Repr

/-! ## `ByteWriter` -/

/-- The size of the buffer. -/
def capacity : Nat := 200 * 1024 * 1024

/-- The state is what has been written. -/
abbrev WriteM := StreamM DartError

def put (bytes : List UInt8) : WriteM Unit := fun written =>
  if written.length + bytes.length ≤ capacity then .ok ((), written ++ bytes)
  else .error .rangeError

def writeUint32 (value : Nat) : WriteM Unit := put (leBytes 4 value)

def writeTerminatedString (str : DartString) : WriteM Unit := do
  put (str.map UInt16.toUInt8)
  put [0]

def writeSizedString (str : DartString) : WriteM Unit := do
  put [UInt8.ofNat str.length]
  put (str.map UInt16.toUInt8)

/-! ## `ByteReader` -/

/-- The state is what is left to read. -/
abbrev ReadM := StreamM DartError

/-- `n` bytes. -/
def take (n : Nat) : ReadM (List UInt8) := fun rest =>
  if n ≤ rest.length then .ok (rest.take n, rest.drop n) else .error .rangeError

def readUint32 : ReadM Nat := do return leNat (← take 4)

def readTerminatedString : ReadM DartString := fun rest =>
  match rest.dropWhile (· ≠ 0) with
  | [] => .error .rangeError
  | _ :: rest' => .ok ((rest.takeWhile (· ≠ 0)).map UInt8.toUInt16, rest')

def readSizedString : ReadM DartString := do
  let strSize := leNat (← take 1)
  return (← take strSize).map UInt8.toUInt16

/-! ## The format -/

def collectionVersion : Nat := 1

/-- `true` and `false`, as `bool.toString` and `bool.parse` spell them. -/
def boolText : Bool → DartString
  | true => [0x74, 0x72, 0x75, 0x65]
  | false => [0x66, 0x61, 0x6c, 0x73, 0x65]

def parseBool (s : DartString) : ReadM Bool :=
  if s = boolText true then return true
  else if s = boolText false then return false
  else throw .formatException

/-- `','` -/
def comma : UInt16 := 0x2c

structure CollectionMod where
  name : DartString
  version : DartString
  link : DartString
  isCollection : Bool := false
  mods : Option (List DartString) := none
  filename : Option DartString := none
  deriving DecidableEq, Repr

structure ModCollectionMetaData where
  localId : DartString
  title : DartString
  description : Option DartString := none
  mods : List CollectionMod
  isCosmetic : Bool := false
  deriving DecidableEq, Repr

variable (basename : DartString → DartString)

/-- `mod.mods?.join(',') ?? ''` -/
def CollectionMod.joined (mod : CollectionMod) : DartString :=
  (mod.mods.map fun mods => [comma].intercalate mods).getD []

/-- The text that is written for a file name. -/
def CollectionMod.baseFilename (mod : CollectionMod) : DartString :=
  match mod.filename with
  | some filename => basename filename
  | none => []

/-- The loop body of `toBytes`. -/
def CollectionMod.write (mod : CollectionMod) : WriteM Unit := do
  writeTerminatedString mod.name
  writeTerminatedString mod.version
  writeTerminatedString mod.link
  writeTerminatedString (mod.baseFilename basename)
  writeTerminatedString (boolText mod.isCollection)
  writeTerminatedString mod.joined

def ModCollectionMetaData.write (m : ModCollectionMetaData) : WriteM Unit := do
  writeUint32 collectionVersion
  writeTerminatedString m.localId
  writeSizedString m.title
  writeSizedString (m.description.getD [])
  writeUint32 (if m.isCosmetic then 1 else 0)
  writeUint32 m.mods.length
  m.mods.forM (CollectionMod.write basename)

def ModCollectionMetaData.toBytes (m : ModCollectionMetaData) : Except DartError (List UInt8) := do
  return (← m.write basename []).2

/-- `','.split`: of an empty string it is the list of one empty string. -/
def splitMods (s : DartString) : List DartString := s.splitOn comma

def CollectionMod.read : ReadM CollectionMod := do
  let name ← readTerminatedString
  let version ← readTerminatedString
  let link ← readTerminatedString
  let filename ← readTerminatedString
  let isCollection ← parseBool (← readTerminatedString)
  let mods := splitMods (← readTerminatedString)
  return { name, version, link, filename := some filename, isCollection, mods := some mods }

/-- `List.generate` -/
def readMods : Nat → ReadM (List CollectionMod)
  | 0 => return []
  | n + 1 => do
      let mod ← CollectionMod.read
      return mod :: (← readMods n)

def ModCollectionMetaData.read : ReadM ModCollectionMetaData := do
  let version ← readUint32
  if version ≠ collectionVersion then throw (.exception "Invalid version")
  let localId ← readTerminatedString
  let title ← readSizedString
  let description ← readSizedString
  let isCosmetic := (← readUint32) == 1
  let modCount ← readUint32
  let mods ← readMods modCount
  return { localId, title, mods, isCosmetic, description := some description }

def ModCollectionMetaData.fromBytes (bytes : List UInt8) :
    Except DartError ModCollectionMetaData := do
  return (← ModCollectionMetaData.read bytes).1

/-! ## What is to be kept -/

structure CollectionMod.SameAs (mod mod' : CollectionMod) : Prop where
  name : mod'.name = mod.name
  version : mod'.version = mod.version
  link : mod'.link = mod.link
  filename : mod'.filename.getD [] = mod.filename.getD []
  isCollection : mod'.isCollection = mod.isCollection
  mods : mod'.mods = mod.mods

structure ModCollectionMetaData.SameAs (m m' : ModCollectionMetaData) : Prop where
  localId : m'.localId = m.localId
  title : m'.title = m.title
  description : m'.description.getD [] = m.description.getD []
  isCosmetic : m'.isCosmetic = m.isCosmetic
  mods : List.Forall₂ CollectionMod.SameAs m.mods m'.mods

/-- The collection is read back from what is written for it, whatever comes after that
in the file or in the writer's buffer. -/
def ModCollectionMetaData.RoundTrips (m : ModCollectionMetaData) (tail : List UInt8) : Prop :=
  ∃ bytes m', m.toBytes basename = .ok bytes ∧
    ModCollectionMetaData.fromBytes (bytes ++ tail) = .ok m' ∧ m.SameAs m'

end Kyber.Collection

/-!
## Extracting collections (`ModCollection.extractCollection`)

The entries of a collection's file are written to the names that they have in the archive,
joined to a directory. Where there is no other directory, this is one below the collections
directory, which is named after the collection's id and title. The metadata are written
beside it, under the name of the file.

How a path is split is a matter of the platform and a parameter, as is whether a file can be
created at a place. Directories are taken to be resolved.
-/

namespace Kyber.Collection

open Kyber.Lib

/-- The root of a path, and the names that lead from there to the place. -/
abbrev Location := DartString × List DartString

/-- How names are split on a platform. -/
structure PathStyle where
  /-- The root of an absolute name when it is joined to a path with the root given. -/
  root : DartString → DartString → Option DartString
  /-- What is between separators, behind the root. -/
  segments : DartString → List DartString

/-- `METADATA` -/
def metadataName : DartString := [0x4d, 0x45, 0x54, 0x41, 0x44, 0x41, 0x54, 0x41]

structure ArchiveFile where
  name : DartString
  isFile : Bool := true
  content : List UInt8
  deriving DecidableEq

structure Extraction where
  style : PathStyle
  slugify : DartString → DartString
  /-- `FileHelper.getCollectionDirectory()` -/
  kyberDir : Location
  /-- `basename(file.path)` -/
  fileName : DartString
  canCreate : Location → Bool

inductive Written
  | entry (location : Location)
  | metadata (location : Location)
  deriving DecidableEq

structure Folders where
  files : List (Location × List UInt8)
  directories : List Location := []
  /-- What has been written so far. -/
  written : List Written := []

/-- One segment of a path is followed. -/
def enter (dir : List DartString) (segment : DartString) : List DartString :=
  if segment = [] ∨ segment = [0x2e] then dir
  else if segment = [0x2e, 0x2e] then dir.dropLast
  else dir ++ [segment]

/-- `join`, as the file system reads it. -/
def joined (style : PathStyle) (dir : Location) (name : DartString) : Location :=
  match style.root dir.1 name with
  | some root => (root, (style.segments name).foldl enter [])
  | none => (dir.1, (style.segments name).foldl enter dir.2)

/-- A place in a directory or further below. -/
def isBelow (dir location : Location) : Bool :=
  dir.1 == location.1 && dir.2.isPrefixOf location.2 && dir.2.length < location.2.length

variable (env : Extraction)

def idDir (metaData : ModCollectionMetaData) : Except DartError DartString :=
  if metaData.localId.length < 16 then .error .rangeError
  else .ok (metaData.localId.take 16 ++ [0x2d] ++ env.slugify metaData.title)

/-- The directory exists and is not empty. -/
def isPopulated (folders : Folders) (dir : Location) : Bool :=
  folders.files.any (fun f => isBelow dir f.1) || folders.directories.any (isBelow dir)

def writeFile (location : Location) (content : List UInt8) (written : Location → Written)
    (folders : Folders) : Except DartError Unit × Folders :=
  if env.canCreate location then
    (.ok (), { folders with
      files := supersede Prod.fst folders.files (location, content)
      written := folders.written ++ [written location] })
  else (.error (.exception "FileSystemException"), folders)

/-- The loop over the files of the archive. -/
def writeEntries (dir : Location) : List ArchiveFile → Folders → Except DartError Unit × Folders
  | [], folders => (.ok (), folders)
  | file :: files, folders =>
      if !file.isFile || file.name == metadataName then writeEntries dir files folders
      else
        match writeFile env (joined env.style dir file.name) file.content .entry folders with
        | (.ok (), folders) => writeEntries dir files folders
        | (.error e, folders) => (.error e, folders)

def writeMetadata (collectionsDir : Location) (content : List UInt8) :
    Folders → Except DartError Unit × Folders :=
  writeFile env (collectionsDir.1, collectionsDir.2 ++ [env.fileName]) content .metadata

/-- The files in a directory, and the metadata in another. -/
def writeAll (collectionsDir dir : Location) (files : List ArchiveFile) (metadata : List UInt8)
    (folders : Folders) : Except DartError Unit × Folders :=
  match writeEntries env dir files folders with
  | (.error e, folders) => (.error e, folders)
  | (.ok (), folders) => writeMetadata env collectionsDir metadata folders

/-- What is decided before anything is written: the entry with the metadata, and the name of
the collection's directory. -/
def readMetadata (files : List ArchiveFile) : Except DartError (ArchiveFile × DartString) := do
  match files.find? fun x => x.name == metadataName with
  | none => throw (.exception "Invalid collection")
  | some rawMetaData =>
      let metaData ← ModCollectionMetaData.fromBytes rawMetaData.content
      return (rawMetaData, ← idDir env metaData)

def extractCollection (files : List ArchiveFile) (outDir : Option Location) (folders : Folders) :
    Except DartError Unit × Folders :=
  let collectionsDir := outDir.getD env.kyberDir
  match readMetadata env files with
  | .error e => (.error e, folders)
  | .ok (rawMetaData, idDir) =>
      let dir := joined env.style collectionsDir idDir
      if isPopulated folders dir then (.ok (), folders)
      else writeAll env collectionsDir (outDir.getD dir) files rawMetaData.content folders

end Kyber.Collection
