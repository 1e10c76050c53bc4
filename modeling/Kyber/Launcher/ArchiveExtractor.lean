import Kyber.Collection.FrostyCollection
import Kyber.Lib.Keyed

/-!
# Extracting downloads (`archive_extractor.dart`, `unzip_helper.dart`, `archive.rs`)

A downloaded archive is unpacked to a temporary directory below the mods directory, and is
deleted then. After that the files are sorted: a Frosty collection becomes a directory of
its own, other mods go to the mods directory, and plugins to the launcher's directory.

The three unpackers are modelled by what they leave in the temporary directory. The
libraries that read archives are not part of the repository: of each entry it is known how
far it can be unpacked. The threads that unpack a `.zip` write one file at a time, in any
order, and an entry that is a file has a file's name at the end of its path. Directories
are listed in any order too, and names that differ in case differ. The readers of mods, the
extension of a name, the name of the temporary directory and the one made for a collection
are parameters.
-/

namespace Kyber.Archives

open Kyber.Collection Kyber.Collection.Frosty Kyber.Lib

/-! ## Names -/

def dotZip : DartString := [0x2e, 0x7a, 0x69, 0x70]

def dotRar : DartString := [0x2e, 0x72, 0x61, 0x72]

def dot7z : DartString := [0x2e, 0x37, 0x7a]

def dotDll : DartString := [0x2e, 0x64, 0x6c, 0x6c]

def dotFbcollection : DartString :=
  [0x2e, 0x66, 0x62, 0x63, 0x6f, 0x6c, 0x6c, 0x65, 0x63, 0x74, 0x69, 0x6f, 0x6e]

def endsWith (suffix name : DartString) : Bool := suffix.isSuffixOf name

/-! ## Files -/

structure File where
  /-- The directories that lead to it. -/
  dirs : List DartString := []
  name : DartString
  content : List UInt8
  /-- Modified or changed less than ten seconds before plugins are looked for. -/
  recent : Bool := true
  deriving DecidableEq

namespace File

def path (f : File) : List DartString × DartString := (f.dirs, f.name)

def flat (f : File) : File := { f with dirs := [] }

def inDir (dir : DartString) (f : File) : File := { f with dirs := dir :: f.dirs }

def isTopLevel (f : File) : Bool := f.dirs.isEmpty

/-- What `_extractPlugins` looks for. -/
def isPlugin (f : File) : Bool := endsWith dotDll f.name && f.recent

end File

/-- How far an entry can be unpacked. -/
inductive Reading where
  | whole
  /-- No file is made: there is no such entry, its path leads out of the directory, or the
  file cannot be created. -/
  | refused
  /-- The file is made, but no more than this is written to it. -/
  | broken (written : List UInt8)
  deriving DecidableEq

structure ArchiveEntry where
  file : File
  isDir : Bool := false
  reading : Reading := .whole
  deriving DecidableEq

namespace ArchiveEntry

/-- The file that is made of it. -/
def written (e : ArchiveEntry) : Option File :=
  if e.isDir then none
  else
    match e.reading with
    | .whole => some e.file
    | .refused => none
    | .broken content => some { e.file with content }

/-- `progress_sink` gets an event: `is_dir` is asked before anything is read. -/
def progresses (e : ArchiveEntry) : Bool :=
  if e.isDir then e.reading ≠ .refused else e.reading = .whole

end ArchiveEntry

structure Archive where
  opens : Bool := true
  entries : List ArchiveEntry

structure ExtractionResult where
  success : Bool
  extractedFiles : List (List DartString)
  error : Option String := none
  isFrostyCollection : Bool := false
  pluginsInstalled : Nat := 0

/-- The mods directory and the launcher's `Plugins`. -/
structure Disk where
  /-- The archive is there. -/
  source : Bool := true
  temp : Option (List File) := none
  files : List File
  directories : List (List DartString) := []
  plugins : Option (List (DartString × List UInt8))

structure Environment where
  listSync : List File → List File
  listSync_perm (files : List File) : (listSync files).Perm files
  threads : List ArchiveEntry → List ArchiveEntry
  threads_perm (entries : List ArchiveEntry) : (threads entries).Perm entries
  /-- `extension` of the package `path`, which starts at the last dot of a file's name. -/
  extension : DartString → DartString
  extension_append (stem ext : DartString) (h : stem ≠ [] ∧ ext ≠ [] ∧ 0x2e ∉ ext ∧
    ∀ c ∈ stem ++ ext, c ≠ 0x2f ∧ c ≠ 0x5c) : extension (stem ++ 0x2e :: ext) = 0x2e :: ext
  /-- `UnRAR.dll` leaves what it has written of an entry that is broken. -/
  keepBroken : Bool
  /-- `Uuid().v4()` -/
  tmpDir : DartString
  /-- `slugify` of the name, the version and eight random letters. -/
  newDir : Option FrostyMod → DartString
  /-- `ModReader(file.openSync(), name).readMod()` -/
  readMod : DartString → List UInt8 → Except DartError (Option FrostyMod)
  /-- `FrostyCollectionReader(file.openSync(), path).readMod()`, with the files beside it. -/
  readCollection : List File → File → Except DartError (Option FrostyMod)
  toText : DartError → String

/-- An exception leaves the disk as it is then. -/
abbrev DiskM := ExceptT DartError (StateM Disk)

def orThrow {α : Type} : Except DartError α → DiskM α
  | .ok a => return a
  | .error e => throw e

section

variable (env : Environment)

def isArchive (filename : DartString) : Bool :=
  [dotZip, dotRar, dot7z].contains (env.extension filename)

/-! ## The unpackers -/

/-- `extract_stream`: `File::create` empties what is there, and an entry that breaks off leaves
what was written. If no entry makes an event, `stream.last` throws. -/
def extractStream (archive : Archive) : Except DartError (List File) :=
  if archive.opens && archive.entries.any ArchiveEntry.progresses then
    let written := (env.threads archive.entries).filterMap ArchiveEntry.written
    .ok ((written.map File.flat).foldl (supersede File.path) [])
  else .error (.exception "Bad state: No element")

/-- The loop of `extractRar`, which ends at the first entry that cannot be unpacked. -/
def processFiles : List File → List ArchiveEntry → List File
  | files, [] => files
  | files, e :: entries =>
      match e.written with
      | none => if e.reading = .whole then processFiles files entries else files
      | some f =>
          if e.reading = .whole then processFiles (supersede File.path files f) entries
          else if env.keepBroken then supersede File.path files f
          else files.filter (·.path ≠ f.path)

def extractRar (archive : Archive) : Except DartError (List File) :=
  if archive.opens then .ok (processFiles env [] archive.entries)
  else .error (.exception "Failed to open archive")

/-- `7za e -y`: files are extracted without their directories. -/
def extract7z (archive : Archive) : Except DartError (List File) :=
  if archive.opens && archive.entries.all (·.reading = .whole) then
    let written := archive.entries.filterMap ArchiveEntry.written
    .ok ((written.map File.flat).foldl (supersede File.path) [])
  else .error (.exception "Failed to extract file")

def unrar (filename : DartString) (archive : Archive) : Except DartError (List File) :=
  if endsWith dotRar filename then extractRar env archive else extract7z archive

def unpack (filename : DartString) (archive : Archive) : Except DartError (List File) :=
  if endsWith dotZip filename then extractStream env archive else unrar env filename archive

variable (filename : DartString) (archive : Archive)

/-- What is left in the temporary directory by an unpacker that throws is not looked at. -/
def extractToTemp (deleteSource : Bool) : DiskM Unit := do
  modify fun disk => { disk with temp := some [] }
  let files ← orThrow (unpack env filename archive)
  modify fun disk => { disk with temp := some files }
  if deleteSource then modify fun disk => { disk with source := false }

/-! ## Plugins -/

/-- The names in `Plugins` with what the files have in them. -/
def installed (plugins : List (DartString × List UInt8)) (f : File) :
    List (DartString × List UInt8) :=
  supersede Prod.fst plugins (f.name, f.content)

/-- The loop: `copy` throws if there is no such directory. -/
def installPlugins : List File → DiskM Nat
  | [] => return 0
  | f :: files => do
      match (← get).plugins with
      | none => throw (.exception "PathNotFoundException")
      | some plugins =>
          modify fun disk => { disk with
            files := disk.files.filter (· ≠ f)
            plugins := some (installed plugins f) }
          return (← installPlugins files) + 1

def below (dir : List DartString) (files : List File) : List File :=
  files.filter fun f => dir.isPrefixOf f.dirs

def pluginFiles (dir : List DartString) (files : List File) : List File :=
  (env.listSync (below dir files)).filter File.isPlugin

def extractPlugins (dir : List DartString) : StateM Disk Nat := fun disk =>
  match installPlugins (pluginFiles env dir disk.files) disk with
  | (.ok count, disk) => (count, disk)
  | (.error _, disk) => (0, disk)

/-! ## Collections and mods -/

/-- What the mods directory has in it. -/
def names (disk : Disk) : List DartString :=
  disk.files.filterMap (fun f => (f.dirs ++ [f.name]).head?) ++
    disk.directories.filterMap List.head? ++
    (if disk.source then [filename] else []) ++
    (if disk.temp.isSome then [env.tmpDir] else [])

/-- `renameSync` of the temporary directory. -/
def renameTemp (dir : DartString) : DiskM Unit := do
  let disk ← get
  if (names env filename disk).contains dir then throw (.exception "FileSystemException")
  set { disk with
    temp := none
    files := disk.files ++ (disk.temp.getD []).map (File.inDir dir)
    directories := disk.directories ++ [[dir]] }

def moveCollection (files : List File) : DiskM ExtractionResult := do
  match files.find? fun f => endsWith dotFbcollection f.name with
  | none => throw (.exception "Bad state: No element")
  | some collectionFile =>
      let temp := (← get).temp.getD []
      let collection ← orThrow (env.readCollection temp collectionFile)
      let dir := env.newDir collection
      renameTemp env filename dir
      let pluginsInstalled ← extractPlugins env [dir]
      return {
        success := true
        extractedFiles := [[dir]]
        isFrostyCollection := true
        pluginsInstalled }

def handleFrostyCollection (files : List File) : StateM Disk ExtractionResult := fun disk =>
  match moveCollection env filename files disk with
  | (.ok result, disk) => (result, disk)
  | (.error e, disk) => ({
      success := false
      extractedFiles := []
      error := some ("Failed to process Frosty Collection: " ++ env.toText e)
      isFrostyCollection := true }, disk)

def isNonEmptyDir (name : DartString) (disk : Disk) : Bool :=
  disk.files.any (fun f => f.dirs.head? = some name) ||
    disk.directories.any (fun d => d.head? = some name && 1 < d.length) ||
    name = env.tmpDir

/-- `existingMod.delete()`, which is not recursive. -/
def deleteExisting (name : DartString) : DiskM Unit := do
  let disk ← get
  if isNonEmptyDir env name disk then throw (.exception "FileSystemException")
  set { disk with
    files := disk.files.filter (·.path ≠ ([], name))
    directories := disk.directories.filter (· ≠ [name]) }

/-- `rename` of a file of the temporary directory. -/
def moveFile (f : File) : DiskM Unit :=
  modify fun disk => { disk with
    temp := disk.temp.map fun temp => temp.filter (· ≠ f)
    files := supersede File.path disk.files f }

/-- The loop body of `_handleRegularMods`. -/
def moveMod (mainDirFiles : List DartString) (f : File) : DiskM (List (List DartString)) := do
  let _mod ← orThrow (env.readMod f.name f.content)
  if mainDirFiles.contains f.name && env.extension f.name ≠ dotDll then return []
  else if mainDirFiles.contains f.name then
    deleteExisting env f.name
    moveFile f
    return [[f.name]]
  else
    moveFile f
    return [[f.name]]

def moveMods (mainDirFiles : List DartString) : List File → DiskM (List (List DartString))
  | [] => return []
  | f :: files => do
      let moved ← moveMod env mainDirFiles f
      return moved ++ (← moveMods mainDirFiles files)

def moveRegularMods (files : List File) : DiskM ExtractionResult := do
  let mainDirFiles := names env filename (← get)
  let extractedFiles ← moveMods env mainDirFiles files
  modify fun disk => { disk with temp := none }
  let pluginsInstalled ← extractPlugins env []
  return { success := true, extractedFiles, pluginsInstalled }

def handleRegularMods (files : List File) : StateM Disk ExtractionResult := fun disk =>
  match moveRegularMods env filename files disk with
  | (.ok result, disk) => (result, disk)
  | (.error e, disk) => ({
      success := false
      extractedFiles := []
      error := some ("Failed to extract mods: " ++ env.toText e) }, disk)

/-- The files of a directory that are in it directly. -/
def topLevel (files : List File) : List File := (env.listSync files).filter File.isTopLevel

def extract (deleteSource : Bool) : StateM Disk ExtractionResult := fun disk =>
  if !isArchive env filename then
    ({
      success := false
      extractedFiles := []
      error := some "File is not a supported archive format" }, disk)
  else
    match extractToTemp env filename archive deleteSource disk with
    | (.error e, disk) => ({
        success := false
        extractedFiles := []
        error := some ("An error occurred while unpacking the archive: " ++ env.toText e) }, disk)
    | (.ok (), disk) =>
        let files := topLevel env (disk.temp.getD [])
        if files.any fun f => endsWith dotFbcollection f.name then
          handleFrostyCollection env filename files disk
        else handleRegularMods env filename files disk

end

end Kyber.Archives
