import Kyber.ModLoader.Merge

/-!
# Loading mods (`ModLoader.cpp`, `frosty_mod.h`, `ManifestMerger.cpp`)

A mod is a file that the game is to read like one of its own cas files, so it gets a file id:
the number of a catalog and of a cas file in it, behind those that the catalog has. Which one
it is depends on how many mods have been loaded.

What Frosty makes of a mod file is given, and so are the numbers that are read from the file
and the buffers that are read for handlers. A file that cannot be opened or read leaves the
loader as it is. With no catalog left an assertion fails, and where assertions are off the size
behind the last is read.
-/

namespace Kyber.ModLoader

/-! ## File ids -/

/-- `kCatalogSizes`. -/
def catalogSizes : List UInt8 := [10, 5, 3, 12, 7, 3, 6]

/-- The loop of `GetNextModFile`, from the catalog `catalogIndex` on, and the number of the cas
file in the catalog it ends at. -/
def nextCatalog : List UInt8 → Int32 → UInt32 → Except Fault (Int32 × UInt32)
  | [], _, _ => throw .outOfBounds
  | size :: sizes, catalogIndex, casIndex =>
      let availableCatalogSpace := 0xFF - size.toUInt32
      if casIndex > availableCatalogSpace then
        nextCatalog sizes (catalogIndex + 1) (casIndex - availableCatalogSpace)
      else
        return (catalogIndex, casIndex + size.toUInt32)

/-- The file id of a cas file that is not in the patch. -/
def fileId (catalogIndex : Int32) (casIndex : UInt32) : Int32 :=
  (catalogIndex + 1) <<< 12 ||| ((casIndex.toInt32 - 1) &&& 0xFF)

/-- `GetNextModFile`, with `m_mods.size()`. -/
def getNextModFile (modCount : Nat) : Except Fault Int32 := do
  let (catalogIndex, casIndex) ← nextCatalog catalogSizes 0 (UInt32.ofNat modCount)
  return fileId catalogIndex casIndex

/-- What `LoadCatEntriesHk` reads off a file id. -/
structure CasFile where
  catalogIndex : Int32
  isInPatch : Bool
  casIndex : Int32
  deriving DecidableEq, Repr

def casFile (file : Int32) : CasFile where
  catalogIndex := (file >>> 12) - 1
  isInPatch := file &&& 0x100 ≠ 0
  casIndex := (file &&& 0xFF) + 1

/-! ## Mod files -/

/-- `RTFrostyResourceT`, without the flags, the SHA-1 and the user data. -/
structure RTFrostyResource where
  type : ResourceType
  resourceIndex : Int32
  name : ByteString
  size : Int64
  handlerHash : Int32
  addedBundles : List UInt32
  resType : UInt32
  resRid : UInt64
  resMeta : Vector UInt8 16
  rangeStart : UInt32
  rangeEnd : UInt32
  logicalOffset : UInt32
  logicalSize : UInt32
  h32 : Int32
  firstMip : Int32

/-- `RTFrostyModT`, without the details. -/
structure RTFrostyMod where
  dataOffset : Int64
  dataCount : Int32
  resources : List RTFrostyResource
  /-- the two numbers that are read from `fp` after a place has been sought -/
  readFp : Int64 → Int64 × Int64
  /-- the buffer that `RT_FrostyReadModResource` hands out, if it does not fail -/
  readModResource : RTFrostyResource → Option (Option (List UInt8))

/-- The file that `LoadMod` is called on. -/
inductive ModFile
  | notOpened
  | notLoaded
  | loaded (mod : RTFrostyMod)

/-- The place of a resource's entry in the data table, as `fseek` gets it: its `long` has 32 bits
on Windows. -/
def RTFrostyMod.soughtPlace (mod : RTFrostyMod) (resource : RTFrostyResource) : Int64 :=
  (mod.dataOffset + (resource.resourceIndex * 16).toInt64).toInt32.toInt64

/-- Where the data of a resource stand in the mod's file, and how many they are. -/
def RTFrostyMod.locate (mod : RTFrostyMod) (resource : RTFrostyResource) : Int64 × Int64 :=
  if resource.resourceIndex ≠ -1 then
    let (dataOffset, dataSize) := mod.readFp (mod.soughtPlace resource)
    (mod.dataOffset + (mod.dataCount * 16).toInt64 + dataOffset, dataSize)
  else
    (0, 0)

/-- `buffer`, or `none` if the resource is skipped because it cannot be read. -/
def RTFrostyMod.buffer (mod : RTFrostyMod) (resource : RTFrostyResource) :
    Option (Option (List UInt8)) :=
  if resource.resourceIndex ≠ -1 ∧ resource.handlerHash ≠ 0 then
    mod.readModResource resource
  else
    some none

/-- The resource that the loop of `LoadMod` makes, unless it skips it. -/
def RTFrostyMod.modResource (mod : RTFrostyMod) (vanilla : VanillaTables) (fbFile : Int32)
    (resource : RTFrostyResource) : Option ModResource :=
  match mod.buffer resource with
  | none => none
  | some buffer =>
      let (offset, dataSize) := mod.locate resource
      let bundles := resource.addedBundles
      if resource.type ≠ .bundle ∧ resource.resourceIndex = -1 ∧ bundles.isEmpty then
        none
      else
        some
          { type := resource.type
            name := resource.name
            bundles
            handlerHash := resource.handlerHash
            resourceIndex := resource.resourceIndex
            dupedWithHandler := resource.handlerHash ≠ 0 ∧ !bundles.isEmpty ∧
              (vanilla.getVanillaEbxEntry resource.name).isNone
            data :=
              { size := dataSize.toUInt64
                originalSize := resource.size.toUInt64
                buffer
                fbFile
                dataOffset := offset.toUInt64.toUInt32
                resType := resource.resType
                resRid := resource.resRid
                resMeta := if resource.type = .res then resource.resMeta else Vector.replicate 16 0
                rangeStart := resource.rangeStart
                rangeEnd := resource.rangeEnd
                logicalOffset := resource.logicalOffset
                logicalSize := resource.logicalSize
                h32 := resource.h32
                firstMip := resource.firstMip }
            uniqueIdWithType :=
              hashQuickLower (toDecimal resource.type.value ++ [0x5f] ++ resource.name) }

/-! ## The loader -/

/-- `KyberMod`. -/
structure LoadedMod extends KyberMod where
  path : ByteString
  fbFile : Int32

/-- What `LoadMod` changes of the loader. -/
structure LoadedMods where
  mods : List LoadedMod := []
  addedBundles : Std.TreeSet UInt32 := {}
  requiredFiles : List Int32 := []

/-- The vanilla file of an asset. -/
def VanillaTables.file (vanilla : VanillaTables) (type : AssetType) (name : ByteString) :
    Option FileInfo :=
  match type with
  | .ebx => (vanilla.getVanillaEbxEntry name).map (·.file)
  | .res => (vanilla.getVanillaResEntry name).map (·.file)
  | .chunk => (vanilla.getVanillaChunkEntry name).map (·.file)

namespace LoadedMods

/-- What is noted of a resource: a bundle that is added, or the file that it has its data in
without the mod. `m_requiredFiles` is a set. -/
def note (loader : LoadedMods) (vanilla : VanillaTables) (r : ModResource) : LoadedMods :=
  if r.type = .bundle then
    { loader with addedBundles := loader.addedBundles.insert (hashQuickLower r.name) }
  else if r.resourceIndex = -1 then
    match r.type.assetType.bind fun type => vanilla.file type r.name with
    | none => loader
    | some file => { loader with requiredFiles := loader.requiredFiles.insert file.file }
  else
    loader

/-- `LoadMod`. -/
def loadMod (loader : LoadedMods) (vanilla : VanillaTables) (relativeFileName : ByteString) :
    ModFile → Except Fault LoadedMods
  | .notOpened => return loader
  | .notLoaded => return loader
  | .loaded mod => do
      let fbFile ← getNextModFile loader.mods.length
      let resources := mod.resources.filterMap (mod.modResource vanilla fbFile)
      let kmod : LoadedMod :=
        { path := relativeFileName, fbFile, resources := resources.mergeSort leType }
      let noted := resources.foldl (fun loader r => loader.note vanilla r) loader
      return { noted with mods := loader.mods ++ [kmod] }

/-- The loop over `modPaths`. -/
def loadMods (vanilla : VanillaTables) (calls : List (ByteString × ModFile))
    (loader : LoadedMods) : Except Fault LoadedMods :=
  calls.foldlM (fun loader call => loader.loadMod vanilla call.1 call.2) loader

end LoadedMods

end Kyber.ModLoader
