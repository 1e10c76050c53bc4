import Kyber.Collection.ModCollection
import Kyber.Lib.JsonText

/-!
# Frosty collections (`frosty_collection_writer.dart`, `frosty_collection_reader.dart`)

A file has a header of seven words, the manifest as JSON, the icon and the screenshots.
The writer leaves room for five words in the header, and goes back to fill them in when
it knows where the sections are; so the writer is modelled with its buffer and its
cursor. The reader works on a file, which it closes however reading ends.

The JSON methods of the manifest are generated code and a parameter, as are the lengths
of the mods' files that lie beside the collection.
-/

namespace Kyber.Collection.Frosty

open Kyber.Lib

/-! ## `ByteWriter` -/

structure ByteWriter where
  byteData : List UInt8 := List.replicate capacity 0
  offset : Nat := 0

abbrev CursorM := StateT ByteWriter (Except DartError)

def setAll (data : List UInt8) : CursorM Unit := fun w =>
  if w.offset + data.length ≤ w.byteData.length then
    .ok ((), {
      byteData := w.byteData.take w.offset ++ data ++ w.byteData.drop (w.offset + data.length)
      offset := w.offset + data.length })
  else .error .rangeError

def writeUint32 (value : Nat) : CursorM Unit := setAll (leBytes 4 value)

def writeByteData (data : List UInt8) : CursorM Unit := setAll data

def getOffset : CursorM Nat := fun w => .ok (w.offset, w)

def setOffset (offset : Nat) : CursorM Unit := fun w => .ok ((), { w with offset })

def toBytes : CursorM (List UInt8) := fun w => .ok (w.byteData.take w.offset, w)

/-! ## The collection -/

structure FrostyCollectionManifest where
  link : DartString
  title : DartString
  author : DartString
  version : DartString
  description : DartString
  category : DartString
  mods : List DartString
  modVersions : List DartString
  deriving DecidableEq, Repr

/-- The members of a JSON object. -/
abbrev Members := List (DartString × JsonText.Document)

/-- The generated methods of the manifest. -/
structure ManifestCodec where
  toJson : FrostyCollectionManifest → Members
  fromJson : Members → Except DartError FrostyCollectionManifest

structure FrostyCollection where
  manifest : FrostyCollectionManifest
  icon : Option (List UInt8) := none
  screenshots : List (List UInt8) := []

def frostyMagic : Nat := 0x46434F4C

section

variable (codec : ManifestCodec)

/-- `utf8.encode(jsonEncode(manifest.toJson()))` -/
def FrostyCollectionManifest.bytes (manifest : FrostyCollectionManifest) : List UInt8 :=
  Utf16.encodeUtf8 (JsonText.encode (.map (codec.toJson manifest)))

def writeIcon : Option (List UInt8) → CursorM Unit
  | some icon => writeByteData icon
  | none => pure ()

def writeScreenshot (screenshot : List UInt8) : CursorM Unit := do
  writeUint32 screenshot.length
  writeByteData screenshot

/-- `FrostyCollectionWriter.write` -/
def FrostyCollection.writeM (collection : FrostyCollection) : CursorM (List UInt8) := do
  writeUint32 frostyMagic
  writeUint32 collectionVersion
  (List.range 5).forM fun _ => writeUint32 0
  let manifestOffset ← getOffset
  writeByteData (collection.manifest.bytes codec)
  let manifestSize := (← getOffset) - manifestOffset
  let iconOffset ← getOffset
  writeIcon collection.icon
  let iconSize := (← getOffset) - iconOffset
  let screenshotsOffset ← getOffset
  writeUint32 collection.screenshots.length
  collection.screenshots.forM writeScreenshot
  let lastOffset ← getOffset
  setOffset 8
  writeUint32 manifestOffset
  writeUint32 manifestSize
  writeUint32 iconOffset
  writeUint32 iconSize
  writeUint32 screenshotsOffset
  setOffset lastOffset
  toBytes

def FrostyCollection.write (collection : FrostyCollection) : Except DartError (List UInt8) := do
  return (← collection.writeM codec {}).1

end

/-! ## Reading -/

structure RandomAccessFile where
  content : List UInt8
  position : Nat := 0
  closed : Bool := false

/-- An exception leaves the file where it is. -/
abbrev FileM := ExceptT DartError (StateM RandomAccessFile)

def setPositionSync (position : Nat) : FileM Unit := fun f =>
  if f.closed then (.error (.exception "File closed"), f) else (.ok (), { f with position })

/-- At most so many bytes: there may be fewer of them left. -/
def readSync (count : Nat) : FileM (List UInt8) := fun f =>
  if f.closed then (.error (.exception "File closed"), f)
  else
    let bytes := (f.content.drop f.position).take count
    (.ok bytes, { f with position := f.position + bytes.length })

def lengthSync : FileM Nat := fun f =>
  if f.closed then (.error (.exception "File closed"), f) else (.ok f.content.length, f)

def readUint32 : FileM Nat := do
  let value ← readSync 4
  if value.length < 4 then throw (.exception "Failed to read 4 bytes")
  return leNat value

/-- `try` and `finally file.closeSync()` -/
def closing {α : Type} (body : FileM α) : FileM α := fun f =>
  let (result, f) := body f
  (result, { f with closed := true })

structure FrostyModDetails where
  name : DartString
  author : DartString
  category : DartString
  version : DartString
  description : DartString
  link : Option DartString := none
  deriving DecidableEq, Repr

structure FrostyMod where
  version : Nat
  gameVersion : Nat
  filename : DartString
  details : FrostyModDetails
  isCollection : Bool := false
  size : Nat := 0
  screenshotOffset : Nat := 0
  mods : Option (List DartString) := none
  icon : Option (List UInt8) := none
  deriving DecidableEq, Repr

/-- The loop of `readScreenshots`. -/
def readScreenshotList : Nat → FileM (List (List UInt8))
  | 0 => return []
  | count + 1 => do
      let size ← readUint32
      let screenshot ← readSync size
      return screenshot :: (← readScreenshotList count)

def FrostyMod.readScreenshots (mod : FrostyMod) : FileM (List (List UInt8)) := do
  setPositionSync mod.screenshotOffset
  let count ← readUint32
  readScreenshotList count

/-- `jsonDecode(utf8.decode(bytes)) as Map<String, Object?>` -/
def decodeManifest (bytes : List UInt8) : FileM Members := do
  match (Utf16.decodeUtf8 bytes).bind JsonText.decode with
  | none => throw .formatException
  | some (.map members) => return members
  | some _ => throw (.exception "type cast")

section

variable (codec : ManifestCodec) (fileLength : DartString → Option Nat) (filename : DartString)

/-- `FrostyCollectionReader.readMod` -/
def readMod : FileM (Option FrostyMod) := closing do
  let magic ← readUint32
  let version ← readUint32
  if magic ≠ frostyMagic then return none
  let manifestOffset ← readUint32
  let manifestSize ← readUint32
  let iconOffset ← readUint32
  let iconSize ← readUint32
  let screenshotOffset ← readUint32
  setPositionSync manifestOffset
  let members ← decodeManifest (← readSync manifestSize)
  let manifest ← liftExcept (codec.fromJson members)
  setPositionSync iconOffset
  let icon ← readSync iconSize
  let size ← lengthSync
  return some {
    version
    gameVersion := 0
    filename
    icon := some icon
    size := size + (manifest.mods.map fun mod => (fileLength mod).getD 0).sum
    isCollection := true
    mods := some manifest.mods
    screenshotOffset
    details := {
      name := manifest.title
      author := manifest.author
      category := manifest.category
      version := manifest.version
      description := manifest.description
      link := some manifest.link } }
where
  liftExcept {α : Type} : Except DartError α → FileM α
    | .ok a => return a
    | .error e => throw e

end

end Kyber.Collection.Frosty
