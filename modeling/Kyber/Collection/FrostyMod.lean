import Kyber.Collection.FrostyCollection
import Kyber.Lib.Readers

/-!
# Mod files in the launcher (`frosty_mod_reader.dart`, `base_mod_resource.dart`, `file_byte_reader.dart`)

The launcher reads a mod's file for what it shows of it: details, icon and screenshots, and the
names of its resources. A reader counts the bytes that it has asked for, and where it is in the
file after the details is kept with the mod, so that another reader can go on from there.

`readSync` may return fewer bytes than it is asked for, and most methods then look at the buffer
behind the list, about which nothing is documented but for lists that are complete. So `Buffers`
is a parameter, and so is what `CustomFrostyData.fromJson` makes of bytes. The filename is always
given where it is needed, and the filter by type never is.
-/

namespace Kyber.Collection.ModReader

open Kyber.Lib

/-- The bytes behind the list that `readSync` returns for a number of bytes. -/
structure Buffers where
  buffer : Nat → List UInt8 → List UInt8
  complete : ∀ bytes, buffer bytes.length bytes = bytes

/-- `ModResourceType` -/
inductive ModResourceType
  | embedded
  | ebx
  | res
  | chunk
  | bundle
  | invalid
  deriving DecidableEq, Repr

/-- `ModResourceType.values` -/
def ModResourceType.values : List ModResourceType :=
  [.embedded, .ebx, .res, .chunk, .bundle, .invalid]

structure BaseModResource where
  type : ModResourceType
  resourceIndex : Int := -1
  name : Option DartString := none
  sha1 : Option (List UInt8) := none
  size : Option Int := none
  flags : Option Nat := none
  handlerHash : Option Int := none
  userData : DartString := []
  bundlesToAdd : List Nat := []
  deriving DecidableEq, Repr

/-- `FrostyMod`, with what is known of a mod alone. -/
structure FrostyMod (γ : Type) extends Frosty.FrostyMod where
  offset : Nat
  dataCount : Nat
  dataOffset : Int64
  customFrostyData : Option γ

/-- `ModReader`. What is late or null is set before it is looked at. -/
structure Reader where
  file : Frosty.RandomAccessFile
  offset : Nat := 0
  readerVersion : Nat := 0
  dataOffset : Int64 := 0
  dataCount : Nat := 0
  entries : Option (List (Int64 × Int64)) := none

abbrev ReaderM := StateT Reader (Except DartError)

def ofFile {α : Type} (m : Frosty.FileM α) : ReaderM α := fun r =>
  match m r.file with
  | (.ok a, file) => .ok (a, { r with file })
  | (.error e, _) => .error e

def advance (n : Nat) : ReaderM Unit := modify fun r => { r with offset := r.offset + n }

/-! ## `FileByteReader` -/

/-- `setPositionSync` with a number that may be negative. -/
def seek (position : Int64) : ReaderM Unit :=
  if position < 0 then throw (.exception "setPosition failed")
  else ofFile (Frosty.setPositionSync position.toNatClampNeg)

section

variable (buffers : Buffers)

/-- A number is taken from the buffer behind the list, if it is large enough. -/
def readNumber (n : Nat) : ReaderM Nat := do
  let value ← ofFile (Frosty.readSync n)
  let data := buffers.buffer n value
  if data.length < n then throw .rangeError
  else
    advance n
    return leNat (data.take n)

def readByte : ReaderM Nat := readNumber buffers 1

def readInt : ReaderM Int := do return (UInt32.ofNat (← readNumber buffers 4)).toInt32.toInt

def readLong : ReaderM Int := do return (UInt64.ofNat (← readNumber buffers 8)).toInt64.toInt

/-- A number whose bytes are counted. -/
def readChecked (n : Nat) (message : String) : ReaderM Nat := do
  let value ← ofFile (Frosty.readSync n)
  advance n
  if value.length < n then throw (.exception message)
  else return leNat ((buffers.buffer n value).take n)

/-- An `int` has 64 bits, and a sign. -/
def readUint64 : ReaderM Int64 := do
  return (UInt64.ofNat (← readChecked buffers 8 "Failed to read 8 bytes")).toInt64

def readUint32 : ReaderM Nat := readChecked buffers 4 "Failed to read 4 bytes"

/-- `readIntoSync` puts what there is into the front of the list. -/
def readUint8List (size : Int) : ReaderM (List UInt8) :=
  if size < 0 then throw .rangeError
  else do
    let bytes ← ofFile (Frosty.readSync size.toNat)
    advance size.toNat
    return bytes ++ List.replicate (size.toNat - bytes.length) 0

def readSha1 : ReaderM (List UInt8) := do
  let value ← ofFile (Frosty.readSync 20)
  advance 20
  return value

/-- The loop of `readTerminatedString`, for as many rounds as can end. -/
def readUntilZero : Nat → List UInt8 → ReaderM (List UInt8)
  | 0, _ => throw (.exception "Out of Memory")
  | rounds + 1, bytes => do
      let byte ← readByte buffers
      if byte = 0 then return bytes else readUntilZero rounds (bytes ++ [UInt8.ofNat byte])

/-- `String.fromCharCodes` -/
def fromCharCodes (bytes : List UInt8) : DartString := bytes.map UInt8.toUInt16

/-- A file that has ended stays so: either what is read then is a zero, or it never is. -/
def readTerminatedString : ReaderM DartString := do
  let r ← get
  let bytes ← readUntilZero buffers (r.file.content.length - r.file.position + 1) []
  return fromCharCodes bytes

def readSizedString : ReaderM DartString := do
  let strSize ← readByte buffers
  let strBytes ← ofFile (Frosty.readSync strSize)
  advance strSize
  return fromCharCodes strBytes

/-! ## `BaseModResource.read` -/

def readName (readerVersion : Nat) (resourceIndex : Int) : ReaderM (Option DartString) :=
  if (readerVersion ≤ 3 ∧ resourceIndex ≠ -1) ∨ readerVersion > 3 then do
    let name ← readTerminatedString buffers
    return some name
  else
    return none

def readUserData (readerVersion : Nat) : ReaderM DartString :=
  if readerVersion ≥ 3 then readTerminatedString buffers else return []

/-- What is read if there are data: the SHA-1, the size, flags, the handler's hash and user data. -/
def readData (readerVersion : Nat) (resource : BaseModResource) : ReaderM BaseModResource :=
  if resource.resourceIndex ≠ -1 then do
    let sha1 ← readSha1
    let size ← readLong buffers
    let flags ← readByte buffers
    let handlerHash ← readInt buffers
    let userData ← readUserData buffers readerVersion
    return { resource with
      sha1 := some sha1, size := some size, flags := some flags
      handlerHash := some handlerHash, userData }
  else
    return resource

def readBundles (readerVersion : Nat) (resourceIndex : Int) : ReaderM (List Nat) :=
  if readerVersion ≤ 3 ∧ resourceIndex ≠ -1 then do
    let count ← readInt buffers
    let _ ← readMany (readInt buffers) count.toNat
    let count ← readInt buffers
    readMany (readUint32 buffers) count.toNat
  else if readerVersion > 3 then do
    let count ← readInt buffers
    readMany (readUint32 buffers) count.toNat
  else
    return []

/-- What is passed over for the type. -/
def readType : ModResourceType → ReaderM Unit
  | .res => do
      let _ ← readUint32 buffers
      let _ ← readUint64 buffers
      let size ← readInt buffers
      let _ ← readUint8List size
      return ()
  | .bundle => do
      let _ ← readTerminatedString buffers
      let _ ← readInt buffers
      return ()
  | .chunk => do
      let _ ← readUint32 buffers
      let _ ← readUint32 buffers
      let _ ← readUint32 buffers
      let _ ← readUint32 buffers
      let _ ← readInt buffers
      let _ ← readInt buffers
      return ()
  | _ => return ()

/-- `BaseModResource.read` -/
def BaseModResource.read (type : ModResourceType) (readerVersion : Nat) :
    ReaderM BaseModResource := do
  let resourceIndex ← readInt buffers
  let name ← readName buffers readerVersion resourceIndex
  let resource ← readData buffers readerVersion { type, resourceIndex, name }
  let bundlesToAdd ← readBundles buffers readerVersion resourceIndex
  readType buffers type
  return { resource with bundlesToAdd }

/-! ## `ModReader` -/

/-- The body of the loop of `_readResources`. -/
def readResourceEntry (readerVersion : Nat) : ReaderM BaseModResource := do
  let byte ← readByte buffers
  if byte > 4 then return { type := .invalid }
  else BaseModResource.read buffers (ModResourceType.values.getD byte .invalid) readerVersion

def maxResources (count : Int) : Option Int → Int
  | none => count
  | some limit => if limit < 0 ∨ limit > count then count else limit

/-- `_readResources` -/
def readResourceList (limit : Option Int) : ReaderM (List BaseModResource) := do
  let count ← readInt buffers
  let r ← get
  readMany (readResourceEntry buffers r.readerVersion) (maxResources count limit).toNat

/-- The sixteen bytes of an entry. -/
def entryAt (bytes : List UInt8) (i : Nat) : Int64 × Int64 :=
  ((UInt64.ofNat (leNat ((bytes.drop (i * 16)).take 8))).toInt64,
    (UInt64.ofNat (leNat ((bytes.drop (i * 16 + 8)).take 8))).toInt64)

/-- `_loadEntryTable` -/
def loadEntryTable : ReaderM (List (Int64 × Int64)) := do
  let r ← get
  seek r.dataOffset
  let bytes ← ofFile (Frosty.readSync (r.dataCount * 16))
  if bytes.length < r.dataCount * 16 then throw .rangeError
  else
    let entries := (List.range r.dataCount).map (entryAt bytes)
    modify fun r => { r with entries := some entries }
    return entries

def entryTable : ReaderM (List (Int64 × Int64)) := do
  let r ← get
  match r.entries with
  | some entries => return entries
  | none => loadEntryTable

/-- `readResource`, for a reader that is at a mod. -/
def readResource (resource : BaseModResource) : ReaderM (Option (List UInt8)) :=
  if resource.resourceIndex = -1 then return none
  else do
    let entries ← entryTable
    let idx := resource.resourceIndex
    if idx < 0 then throw .rangeError
    else
      match entries[idx.toNat]? with
      | none => throw .rangeError
      | some (off, size) =>
          let r ← get
          let dataBase := r.dataOffset + Int64.ofNat (r.dataCount * 16)
          seek (dataBase + off)
          if size < 0 then throw .rangeError
          else
            let data ← ofFile (Frosty.readSync size.toNatClampNeg)
            return some data

/-- `try` and `finally file.closeSync()` -/
def closing {α : Type} (body : ReaderM α) : ReaderM α := do
  let a ← body
  modify fun r => { r with file := { r.file with closed := true } }
  return a

section

variable {γ : Type}

/-- `_initializeReader` -/
def initializeReader (mod : FrostyMod γ) : ReaderM Unit := do
  modify fun r => { r with
    readerVersion := mod.version, offset := mod.offset, dataCount := mod.dataCount
    dataOffset := mod.dataOffset, entries := none }
  ofFile (Frosty.setPositionSync mod.offset)

def readResources (mod : FrostyMod γ) : ReaderM (List BaseModResource) := closing do
  initializeReader mod
  ofFile (Frosty.setPositionSync mod.offset)
  readResourceList buffers none

/-- The iterable is lazy: the first resource is never read. -/
def readScreenshots (mod : FrostyMod γ) : ReaderM (List (List UInt8)) := closing do
  if mod.isCollection then return []
  else
    initializeReader mod
    ofFile (Frosty.setPositionSync mod.offset)
    let resources ← readResourceList buffers (some 5)
    let screenshots ← (resources.drop 1).mapM readResource
    return screenshots.reduceOption

def kFrostyMagic : Int64 := 0x01005954534F5246

def kFrostyVersion : Nat := 1

/-- `starwarsbattlefrontii` -/
def kProfile : DartString :=
  [0x73, 0x74, 0x61, 0x72, 0x77, 0x61, 0x72, 0x73, 0x62, 0x61, 0x74, 0x74, 0x6c, 0x65, 0x66, 0x72,
    0x6f, 0x6e, 0x74, 0x69, 0x69]

/-- `Map`, `Maps` and `Gameplay` -/
def kDataCategories : List DartString :=
  [[0x4d, 0x61, 0x70], [0x4d, 0x61, 0x70, 0x73], [0x47, 0x61, 0x6d, 0x65, 0x70, 0x6c, 0x61, 0x79]]

/-- `toLowerCase`, of characters of one byte. None of the others becomes one of ASCII. -/
def toLowerCase (str : DartString) : DartString :=
  str.map fun u => if 0x41 ≤ u ∧ u ≤ 0x5a then u + 0x20 else u

/-- `link`, which is null if it is empty. -/
def readLink (version : Nat) : ReaderM (Option DartString) :=
  if version ≥ 5 then do
    let link ← readTerminatedString buffers
    return if link.isEmpty then none else some link
  else
    return none

/-- The numbers of the header. -/
structure Head where
  version : Nat
  dataOffset : Int64
  dataCount : Nat
  gameVersion : Nat

/-- The first part of `readMod`, which returns null for files that are something else. -/
def readHead : ReaderM (Option Head) := do
  let magic ← readUint64 buffers
  let version ← readUint32 buffers
  if magic ≠ kFrostyMagic ∨ version < kFrostyVersion then return none
  else
    let dataOffset ← readUint64 buffers
    let dataCount ← readUint32 buffers
    let profile ← readSizedString buffers
    if toLowerCase profile ≠ kProfile then return none
    else
      let gameVersion ← readUint32 buffers
      return some { version, dataOffset, dataCount, gameVersion }

def readDetails (version : Nat) : ReaderM Frosty.FrostyModDetails := do
  let title ← readTerminatedString buffers
  let author ← readTerminatedString buffers
  let category ← readTerminatedString buffers
  let modVersion ← readTerminatedString buffers
  let description ← readTerminatedString buffers
  let link ← readLink buffers version
  return { name := title, author, category, version := modVersion, description, link }

variable (fromJson : List UInt8 → Option γ)

/-- The icon, and the data that some mods have as their sixth resource. -/
def readPictures (category : DartString) : ReaderM (Option (List UInt8) × Option γ) :=
  if kDataCategories.contains category then do
    let resources ← readResourceList buffers (some 6)
    let parsedResources ← resources.mapM readResource
    return (parsedResources.head?.join, parsedResources.getLast?.join.bind fromJson)
  else do
    let resources ← readResourceList buffers (some 1)
    match resources.head? with
    | none => throw (.exception "No element")
    | some resource =>
        let icon ← readResource resource
        return (icon, none)

/-- The fields that reading is done with. -/
def setHead (head : Head) : ReaderM Unit := modify fun r => { r with
  readerVersion := head.version, dataOffset := head.dataOffset, dataCount := head.dataCount }

/-- `readMod` -/
def readMod (filename : DartString) : ReaderM (Option (FrostyMod γ)) := closing do
  let head ← readHead buffers
  match head with
  | none => return none
  | some head =>
      let details ← readDetails buffers head.version
      setHead head
      let r ← get
      let size ← ofFile Frosty.lengthSync
      let (icon, customFrostyData) ← readPictures buffers fromJson details.category
      return some {
        version := head.version
        gameVersion := head.gameVersion
        filename
        icon
        size
        dataCount := head.dataCount
        dataOffset := head.dataOffset
        offset := r.offset
        customFrostyData
        details }

end

end

end Kyber.Collection.ModReader
