import Kyber.ModLoader.LoadMod
import Kyber.Lib.Readers

/-!
# Mod files in the game (`frosty_mod.c`, `frosty_resource.c`, `parse_common.c`)

What the game loads mods with. The numbers and strings of a mod's file are read one after
another by `fread`, whose answer is not looked at: at the end of the file what a number was
before stays. Only a string that is not terminated is noticed.

Memory is always there. The profile is read and used by nothing, so it is only passed over,
and `Zstd` is given.
-/

namespace Kyber.ModLoader.Rt

open Kyber.Lib

/-- `RTErrorT`, reading into an array more than it has room for, and a mod whose resources are
null. -/
inductive RtError
  | invalidArgument
  | readFailed
  | invalidModHeader
  | resourceTooBig
  | decompressionFailed
  | outOfBounds
  | nullResources
  deriving DecidableEq, Repr

/-- `FILE` -/
structure CFile where
  content : List UInt8
  position : Nat := 0

def CFile.rest (f : CFile) : List UInt8 := f.content.drop f.position

abbrev FpM := StateT CFile (Except RtError)

/-! ## `parse_common.c` and `util.h` -/

/-- `fread` into an object: there may be fewer bytes left. -/
def fread (object : List UInt8) : FpM (List UInt8) := fun f =>
  let bytes := f.rest.take object.length
  .ok (bytes ++ object.drop bytes.length, { f with position := f.position + bytes.length })

/-- `fseek` to a place from the start. It fails if there is no such place, which is not looked at. -/
def fseek (place : Int64) : FpM Unit := fun f =>
  .ok ((), if place < 0 then f else { f with position := place.toNatClampNeg })

/-- `RT_READ_FP` of so many bytes into a field. -/
def readFp (size field : Nat) : FpM Nat := do return leNat (← fread (leBytes size field))

def readUInt32 : FpM UInt32 := do return UInt32.ofNat (← readFp 4 0)

def readUInt64 : FpM UInt64 := do return UInt64.ofNat (← readFp 8 0)

def readInt32 : FpM Int32 := do return (← readUInt32).toInt32

def readInt64 : FpM Int64 := do return (← readUInt64).toInt64

/-- `RT_ReadSizedString` -/
def readSizedString : FpM ByteString := do
  let strSize ← readFp 1 0
  fread (List.replicate strSize 0)

/-- `RT_ReadTerminatedString` -/
def readTerminatedString : FpM ByteString := fun f =>
  let str := f.rest.takeWhile (· ≠ 0)
  if str.length < f.rest.length then .ok (str, { f with position := f.position + str.length + 1 })
  else .error .readFailed

/-- `RT_ReadSha1` -/
def readSha1 : FpM (List UInt8) := fread (List.replicate 20 0)

/-! ## Resources -/

def resourceType : Nat → ResourceType
  | 0 => .invalid
  | 1 => .embedded
  | 2 => .ebx
  | 3 => .res
  | 4 => .chunk
  | 5 => .bundle
  | n + 6 => .unknown n

/-- `RTFrostyResourceT` -/
structure FrostyResource extends RTFrostyResource where
  sha1 : List UInt8
  flags : UInt8
  userData : Option ByteString

/-- `Empty`, the name of what has none. -/
def emptyResourceName : ByteString := [0x45, 0x6d, 0x70, 0x74, 0x79]

/-- The fields of a resource that has data, as they are when it has none. -/
structure DataFields where
  sha1 : List UInt8 := List.replicate 20 0
  size : Int64 := 0
  flags : UInt8 := 0
  handlerHash : Int32 := 0
  userData : Option ByteString := none

/-- The fields of the types. -/
structure TypeFields where
  bundleName : Option ByteString := none
  resType : UInt32 := 0
  resRid : UInt64 := 0
  resMeta : Vector UInt8 16 := Vector.replicate 16 0
  rangeStart : UInt32 := 0
  rangeEnd : UInt32 := 0
  logicalOffset : UInt32 := 0
  logicalSize : UInt32 := 0
  h32 : Int32 := 0
  firstMip : Int32 := 0

def parseName (version : UInt32) (resourceIndex : Int32) : FpM (Option ByteString) :=
  if (version ≤ 3 ∧ resourceIndex ≠ -1) ∨ version > 3 then do
    let name ← readTerminatedString
    return some name
  else
    return none

def parseUserData (version : UInt32) : FpM (Option ByteString) :=
  if version ≥ 3 then do
    let userData ← readTerminatedString
    return some userData
  else
    return none

def parseData (version : UInt32) (resourceIndex : Int32) : FpM DataFields :=
  if resourceIndex ≠ -1 then do
    let sha1 ← readSha1
    let size ← readInt64
    let flags ← readFp 1 0
    let handlerHash ← readInt32
    let userData ← parseUserData version
    return { sha1, size, flags := UInt8.ofNat flags, handlerHash, userData }
  else
    return {}

/-- `RT_READ_FP(count, int32_t, fp)`, for what is read over the count that there was. -/
def readCount (count : Int32) : FpM Int32 := do
  return (UInt32.ofNat (← readFp 4 count.toUInt32.toNat)).toInt32

def parseAddedBundles (version : UInt32) (resourceIndex : Int32) : FpM (List UInt32) :=
  if version ≤ 3 ∧ resourceIndex ≠ -1 then do
    let count ← readCount 0
    let _ ← readMany readInt32 count.toNatClampNeg
    let count ← readCount count
    readMany readUInt32 count.toNatClampNeg
  else if version > 3 then do
    let count ← readCount 0
    readMany readUInt32 count.toNatClampNeg
  else
    return []

/-- The first sixteen bytes, or as many as there are and zeros. -/
def metaOf (bytes : List UInt8) : Vector UInt8 16 := .ofFn fun i => bytes.getD i 0

/-- `fread(resource->resMeta, metaSize, 1, fp)`. A negative size is more than any file has. -/
def readMeta (metaSize : Int32) : FpM (Vector UInt8 16) := fun f =>
  let bytes := if metaSize < 0 then f.rest else f.rest.take metaSize.toNatClampNeg
  if bytes.length ≤ 16 then
    .ok (metaOf bytes, { f with position := f.position + bytes.length })
  else
    .error .outOfBounds

/-- The name of a bundle. `RT_SAFE_RET` evaluates its argument once more to return it, so where the
file ends in the name the resource is parsed again at the end. If no other name is read there that
is all right, and `RT_FrostyParseResources` returns `RT_SUCCESS` without any resources. -/
def parseBundleName (version : UInt32) (resourceIndex : Int32) : FpM ByteString := fun f =>
  match readTerminatedString f with
  | .ok answer => .ok answer
  | .error e => .error (if version ≤ 3 ∧ resourceIndex = -1 then .nullResources else e)

def parseType (version : UInt32) (resourceIndex : Int32) : ResourceType → FpM TypeFields
  | .bundle => do
      let name ← parseBundleName version resourceIndex
      let _ ← readInt32
      return { bundleName := some name }
  | .res => do
      let resType ← readUInt32
      let resRid ← readUInt64
      let metaSize ← readInt32
      let resMeta ← readMeta metaSize
      return { resType, resRid, resMeta }
  | .chunk => do
      let rangeStart ← readUInt32
      let rangeEnd ← readUInt32
      let logicalOffset ← readUInt32
      let logicalSize ← readUInt32
      let h32 ← readInt32
      let firstMip ← readInt32
      return {
        rangeStart, rangeEnd, logicalOffset, logicalSize, h32
        firstMip := if firstMip = -1 ∧ rangeStart ≠ 0 then 0 else firstMip }
  | _ => return {}

/-- The resource that has been read. The name that a bundle has takes the place of its resource's. -/
def frostyResource (type : ResourceType) (resourceIndex : Int32) (name : Option ByteString)
    (data : DataFields) (addedBundles : List UInt32) (fields : TypeFields) : FrostyResource where
  type
  resourceIndex
  name := (fields.bundleName.or name).getD emptyResourceName
  sha1 := data.sha1
  size := data.size
  flags := data.flags
  handlerHash := data.handlerHash
  userData := data.userData
  addedBundles
  resType := fields.resType
  resRid := fields.resRid
  resMeta := fields.resMeta
  rangeStart := fields.rangeStart
  rangeEnd := fields.rangeEnd
  logicalOffset := fields.logicalOffset
  logicalSize := fields.logicalSize
  h32 := fields.h32
  firstMip := fields.firstMip

/-- `RT_FrostyParseResource` -/
def frostyParseResource (version : UInt32) : FpM FrostyResource := do
  let type ← readFp 1 0
  let resourceIndex ← readInt32
  let name ← parseName version resourceIndex
  let data ← parseData version resourceIndex
  let addedBundles ← parseAddedBundles version resourceIndex
  let fields ← parseType version resourceIndex (resourceType (type + 1))
  return frostyResource (resourceType (type + 1)) resourceIndex name data addedBundles fields

/-- `RT_FrostyParseResources` -/
def frostyParseResources (version : UInt32) : FpM (List FrostyResource) := do
  let count ← readInt32
  readMany (frostyParseResource version) count.toNatClampNeg

/-! ## Mods -/

/-- `FrostyModDetailsT` -/
structure FrostyModDetails where
  title : ByteString
  author : ByteString
  category : ByteString
  version : ByteString
  description : ByteString
  link : Option ByteString
  deriving DecidableEq, Repr

/-- `RTFrostyModT` -/
structure FrostyMod where
  version : UInt32
  dataOffset : Int64
  dataCount : Int32
  gameVersion : Int32
  details : FrostyModDetails
  resources : List FrostyResource

def frostyMagic : UInt64 := 0x01005954534F5246

def frostyLowestVersion : UInt32 := 1

def frostyHighestVersion : UInt32 := 5

/-- `_ParseModHeader` -/
def parseModHeader : FpM (UInt32 × Int64 × Int32 × Int32) := do
  let magic ← readUInt64
  let version ← readUInt32
  if magic ≠ frostyMagic ∨ version < frostyLowestVersion ∨ version > frostyHighestVersion then
    throw .invalidModHeader
  else
    let dataOffset ← readInt64
    let dataCount ← readInt32
    let _ ← readSizedString
    let gameVersion ← readInt32
    return (version, dataOffset, dataCount, gameVersion)

def parseLink (version : UInt32) : FpM (Option ByteString) :=
  if version ≥ 5 then do
    let link ← readTerminatedString
    return some link
  else
    return none

/-- `_ParseModDetails` -/
def parseModDetails (version : UInt32) : FpM FrostyModDetails := do
  let title ← readTerminatedString
  let author ← readTerminatedString
  let category ← readTerminatedString
  let modVersion ← readTerminatedString
  let description ← readTerminatedString
  let link ← parseLink version
  return { title, author, category, version := modVersion, description, link }

/-- `RT_FrostyLoadMod` -/
def frostyLoadMod : FpM FrostyMod := do
  let (version, dataOffset, dataCount, gameVersion) ← parseModHeader
  let details ← parseModDetails version
  let resources ← frostyParseResources version
  return { version, dataOffset, dataCount, gameVersion, details, resources }

/-! ## The data of a resource -/

/-- An entry of the table: where the data are, and how many. -/
def readEntry (place : Int64) : FpM (Int64 × Int64) := do
  fseek place
  let dataOffset ← readInt64
  let dataSize ← readInt64
  return (dataOffset, dataSize)

/-- What goes before it is given to a handler is compressed. -/
def compressed (resource : RTFrostyResource) : Bool :=
  (resource.type == .ebx || resource.type == .res || resource.type == .chunk) &&
    resource.handlerHash == 0

/-- `RT_FrostyReadModResource`, with what there is in memory that has just been allocated. The
`long` of `fseek` has 32 bits. There is no memory for a negative size, but
`RT_ERROR_ALLOCATION_FAILED` is the number of `RT_SUCCESS`. -/
def frostyReadModResource (memory : Nat → UInt8)
    (decompressEbx : List UInt8 → Except RtError (List UInt8)) (mod : RTFrostyMod)
    (resource : RTFrostyResource) : FpM (Option (List UInt8)) :=
  if resource.resourceIndex = -1 then
    throw .invalidArgument
  else do
    let (dataOffset, dataSize) ← readEntry (mod.soughtPlace resource)
    fseek (mod.dataOffset + (mod.dataCount * 16).toInt64 + dataOffset).toInt32.toInt64
    if dataSize < 0 then
      return none
    else
      let buffer ← fread ((List.range dataSize.toNatClampNeg).map memory)
      if compressed resource then fun f => (decompressEbx buffer).map fun data => (some data, f)
      else return some buffer

end Kyber.ModLoader.Rt
