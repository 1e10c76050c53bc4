import Kyber.ModLoader.LayoutManifest
import Kyber.ModLoader.ModResource

/-!
# Merging mods into the manifests (`ModLoader.cpp`, `ManifestMerger.cpp`)

The game's layout is merged once, for all bundles, when it is loaded; a bundle's
manifest is merged when the bundle is. The layout's list of files and the
manifest's list of entries have to end up in the same order, and the two passes
decide on their own what is modified, what is added and what is left out. What
they share is the vanilla aggregation, the resources of the mods in their order,
and the resources of the bundle.

The layout's pass defers what it adds: modifications go by positions in the
vanilla bundle, which additions would shift.

A pointer to a vanilla entry that is not there is followed in one place of the
layout's pass. That is a fault here.
-/

namespace Kyber.ModLoader

/-! ## The vanilla aggregation -/

/-- `VanillaEbxEntry`, `VanillaResEntry` and `VanillaChunkEntry`. The meta values
of a vanilla chunk are not read. -/
structure VanillaEntry (ε : Type) where
  entry : ε
  file : FileInfo
  bundleFileOffsets : Std.TreeMap UInt32 UInt32

/-- The maps of `BundleMerger`, which are only searched. -/
structure VanillaTables where
  getVanillaEbxEntry : ByteString → Option (VanillaEntry EbxEntry)
  getVanillaResEntry : ByteString → Option (VanillaEntry ResEntry)
  getVanillaChunkEntry : ByteString → Option (VanillaEntry ChunkEntry)

/-- The asset type of the resources that are files of bundles. -/
def ResourceType.assetType : ResourceType → Option AssetType
  | .ebx => some .ebx
  | .res => some .res
  | .chunk => some .chunk
  | _ => none

/-- `originalEntry->bundleFileOffsets`, if there is an original entry. -/
def VanillaTables.offsets (vanilla : VanillaTables) (type : AssetType) (name : ByteString) :
    Option (Std.TreeMap UInt32 UInt32) :=
  match type with
  | .ebx => (vanilla.getVanillaEbxEntry name).map (·.bundleFileOffsets)
  | .res => (vanilla.getVanillaResEntry name).map (·.bundleFileOffsets)
  | .chunk => (vanilla.getVanillaChunkEntry name).map (·.bundleFileOffsets)

/-- The position of an asset in a vanilla bundle. -/
def VanillaTables.position (vanilla : VanillaTables) (type : AssetType) (name : ByteString)
    (bundleHash : UInt32) : Option UInt32 :=
  (vanilla.offsets type name).bind (·[bundleHash]?)

/-- What the two passes read of the loader. -/
structure Loader where
  mods : FinalizedMods
  addedBundles : Std.TreeSet UInt32
  dupedHandlerSources : Std.TreeMap UInt32 ByteString
  vanilla : VanillaTables

/-- `sourceName`: duped assets with handlers rely on a source asset. -/
def Loader.sourceName (loader : Loader) (r : ModResource) : ByteString :=
  if !r.dupedWithHandler then r.name
  else loader.dupedHandlerSources.getD r.handlerHash.toUInt32 []

namespace ModResource

/-- The resource's data in its mod file. -/
def fileInfo (r : ModResource) : FileInfo :=
  { file := r.data.fbFile
    offset := r.data.dataOffset
    size := r.data.size.toUInt32.toUInt64.toInt64 }

/-- The part of a chunk's data that goes into bundles. -/
def rangeInfo (r : ModResource) : FileInfo :=
  let size := if r.data.rangeStart ≠ 0 then r.data.rangeEnd - r.data.rangeStart
    else r.data.size.toUInt32
  { file := r.data.fbFile
    offset := r.data.dataOffset + r.data.rangeStart
    size := size.toUInt64.toInt64 }

/-- The file of a bundle that the resource's data is. -/
def bundleFile (r : ModResource) : AssetType → FileInfo
  | .ebx => r.fileInfo
  | .res => r.fileInfo
  | .chunk => r.rangeInfo

def originalSize (r : ModResource) : UInt32 := r.data.originalSize.toUInt32

def resEntry (r : ModResource) : ResEntry :=
  { name := r.name
    originalSize := r.originalSize
    resType := r.data.resType
    resMeta := r.data.resMeta
    resRid := r.data.resRid }

def chunkEntry (r : ModResource) : ChunkEntry :=
  { guid := Guid.fromString r.name
    logicalOffset := r.data.logicalOffset
    logicalSize := r.data.logicalSize }

end ModResource

/-! ## The bundle manifest -/

namespace BundleManifest

/-- A vanilla entry takes the values of a resource. -/
def modifyWith (m : BundleManifest) (r : ModResource) : AssetType → Except Fault BundleManifest
  | .ebx => .ok (m.modifyEbxEntry r.name r.originalSize)
  | .res => .ok (m.modifyResEntry r.resEntry)
  | .chunk => do
      let (_, m) ← m.addChunkEntry r.chunkEntry r.data.h32 r.data.firstMip false
      return m

/-- A resource with data joins the bundle. -/
def addWith (m : BundleManifest) (r : ModResource) : AssetType → Except Fault BundleManifest
  | .ebx => .ok (m.addEbxEntry r.name r.originalSize).2
  | .res => .ok (m.addResEntry r.resEntry).2
  | .chunk => do
      let (_, m) ← m.addChunkEntry r.chunkEntry r.data.h32 r.data.firstMip
      return m

/-- An asset that the mods do not change joins the bundle. -/
def addUnchanged (m : BundleManifest) (loader : Loader) (r : ModResource) :
    AssetType → Except Fault BundleManifest
  | .ebx =>
      match loader.vanilla.getVanillaEbxEntry (loader.sourceName r) with
      | none => .ok (m.addEbxEntry r.name 1000000 false).2
      | some original => .ok (m.addEbxEntry r.name original.entry.originalSize false).2
  | .res =>
      match loader.vanilla.getVanillaResEntry r.name with
      | none => .ok m
      | some original => .ok (m.addResEntry original.entry false).2
  | .chunk =>
      match loader.vanilla.getVanillaChunkEntry r.name with
      | none => .ok m
      | some original => do
          let entry : ChunkEntry :=
            { guid := Guid.fromString r.name
              logicalOffset := original.entry.logicalOffset
              logicalSize := original.entry.logicalSize }
          let (_, m) ← m.addChunkEntry entry r.data.h32 r.data.firstMip true false
          return m

/-- The loop over `m_modResources`. -/
def modifyEntries (loader : Loader) (bundleHash : UInt32) :
    List ModResource → Std.TreeSet UInt32 → BundleManifest → Except Fault BundleManifest
  | [], _, m => .ok m
  | r :: rs, visited, m =>
      if r.containsBundle bundleHash then
        modifyEntries loader bundleHash rs visited m
      else if r.resourceIndex = -1 ∨ r.handlerHash ≠ 0 then
        modifyEntries loader bundleHash rs visited m
      else if visited.contains r.uniqueIdWithType then
        modifyEntries loader bundleHash rs visited m
      else do
        let m ← match r.type.assetType with
          | none => .ok m
          | some type =>
              if (loader.vanilla.position type r.name bundleHash).isSome then m.modifyWith r type
              else .ok m
        modifyEntries loader bundleHash rs (visited.insert r.uniqueIdWithType) m

/-- The body of the loop over `m_bundleResources[bundleHash]`. -/
def addEntry (loader : Loader) (r : ModResource) (m : BundleManifest) :
    Except Fault BundleManifest :=
  match r.type.assetType with
  | none => .ok m
  | some type =>
      if r.handlerHash = 0 ∧ r.resourceIndex ≠ -1 then m.addWith r type
      else m.addUnchanged loader r type

def addEntries (loader : Loader) : List ModResource → BundleManifest → Except Fault BundleManifest
  | [], m => .ok m
  | r :: rs, m => do
      let m ← addEntry loader r m
      addEntries loader rs m

/-- `win32/`. -/
def platformPath : ByteString := [0x77, 0x69, 0x6e, 0x33, 0x32, 0x2f]

end BundleManifest

/-- `MergeBundleManifest`, for the bundle that is being loaded. -/
def mergeBundleManifest (loader : Loader) (loadingBundleName : ByteString)
    (manifest : BundleManifest) : Except Fault BundleManifest := do
  let bundleHash := hashQuickLower (BundleManifest.platformPath ++ loadingBundleName)
  let manifest ←
    if loader.addedBundles.contains bundleHash then .ok manifest.clear
    else BundleManifest.modifyEntries loader bundleHash loader.mods.modResources {} manifest
  BundleManifest.addEntries loader (loader.mods.resourcesOf bundleHash) manifest

/-! ## The layout manifest -/

/-- `std::to_string` of an unsigned number. -/
def toDecimal (n : Nat) : ByteString := (Nat.toDigits 10 n).map fun c => c.toUInt8

/-- `unique`: an id and a bundle as one number. -/
def uniqueInBundle (id bundleHash : UInt32) : UInt32 :=
  hashQuickLower (toDecimal id.toNat ++ [0x5f] ++ toDecimal bundleHash.toNat)

/-- `DeferredBundleFileAdd`. -/
structure DeferredBundleFileAdd where
  type : AssetType
  file : FileInfo
  deriving DecidableEq, Repr

namespace LayoutManifest

/-- The first loop over `m_modResources`: new chunks and bundles. -/
def addChunksAndBundles : List ModResource → Std.TreeSet ByteString → LayoutManifest →
    Except Fault LayoutManifest
  | [], _, m => .ok m
  | r :: rs, modifiedChunks, m =>
      if r.type = .chunk then
        if r.resourceIndex = -1 then
          addChunksAndBundles rs modifiedChunks m
        else if modifiedChunks.contains r.name then
          addChunksAndBundles rs modifiedChunks m
        else
          addChunksAndBundles rs (modifiedChunks.insert r.name)
            (m.addChunk (Guid.fromString r.name) r.fileInfo)
      else if r.type = .bundle then do
        let m ← m.addBundle (hashQuickLower r.name)
        addChunksAndBundles rs modifiedChunks m
      else
        addChunksAndBundles rs modifiedChunks m

/-- The loop over `bundleFileOffsets`. -/
def modifyInBundles (r : ModResource) (file : FileInfo) : List (UInt32 × UInt32) →
    Std.TreeSet UInt32 → LayoutManifest → Except Fault (Std.TreeSet UInt32 × LayoutManifest)
  | [], modified, m => .ok (modified, m)
  | (bundleHash, index) :: offsets, modified, m =>
      if r.containsBundle bundleHash then
        modifyInBundles r file offsets modified m
      else
        let unique := uniqueInBundle r.uniqueIdWithType bundleHash
        if modified.contains unique then
          modifyInBundles r file offsets modified m
        else do
          let m ← m.setFileInfo bundleHash index.toNat file
          modifyInBundles r file offsets (modified.insert unique) m

/-- The second loop over `m_modResources`: changed assets of vanilla bundles. -/
def modifyFiles (vanilla : VanillaTables) : List ModResource → Std.TreeSet UInt32 →
    LayoutManifest → Except Fault LayoutManifest
  | [], _, m => .ok m
  | r :: rs, modified, m =>
      if r.resourceIndex = -1 ∨ r.handlerHash ≠ 0 then
        modifyFiles vanilla rs modified m
      else
        match r.type.assetType with
        | none => modifyFiles vanilla rs modified m
        | some type =>
            match vanilla.offsets type r.name with
            | none => modifyFiles vanilla rs modified m
            | some offsets => do
                let (modified, m) ←
                  modifyInBundles r (r.bundleFile type) offsets.toList modified m
                modifyFiles vanilla rs modified m

/-- The vanilla file that an unchanged asset is in. A chunk that has none is left
out; for the others the pointer is followed. -/
def unchangedFile (loader : Loader) (r : ModResource) : AssetType → Except Fault (Option FileInfo)
  | .ebx =>
      match loader.vanilla.getVanillaEbxEntry (loader.sourceName r) with
      | none => .error .outOfBounds
      | some original => .ok (some original.file)
  | .res =>
      match loader.vanilla.getVanillaResEntry r.name with
      | none => .error .outOfBounds
      | some original => .ok (some original.file)
  | .chunk => .ok ((loader.vanilla.getVanillaChunkEntry r.name).map (·.file))

/-- The body of the loop over a bundle's resources. -/
def addFile (loader : Loader) (bundleHash : UInt32) (r : ModResource)
    (deferred : List DeferredBundleFileAdd) (m : LayoutManifest) :
    Except Fault (List DeferredBundleFileAdd × LayoutManifest) :=
  match r.type.assetType with
  | none => .ok (deferred, m)
  | some type =>
      if r.handlerHash = 0 ∧ r.resourceIndex ≠ -1 then
        match loader.vanilla.position type r.name bundleHash with
        | none => .ok (deferred ++ [{ type, file := r.bundleFile type }], m)
        | some index => do
            let m ← m.setFileInfo bundleHash index.toNat (r.bundleFile type)
            return (deferred, m)
      else do
        match ← unchangedFile loader r type with
        | none => return (deferred, m)
        | some file => return (deferred ++ [{ type, file }], m)

def addFiles (loader : Loader) (bundleHash : UInt32) : List ModResource →
    List DeferredBundleFileAdd → LayoutManifest →
    Except Fault (List DeferredBundleFileAdd × LayoutManifest)
  | [], deferred, m => .ok (deferred, m)
  | r :: rs, deferred, m => do
      let (deferred, m) ← addFile loader bundleHash r deferred m
      addFiles loader bundleHash rs deferred m

/-- The additions that were deferred. -/
def addDeferred (addedBundles : Std.TreeSet UInt32) (bundleHash : UInt32) :
    List DeferredBundleFileAdd → LayoutManifest → BundleEntries →
    Except Fault (LayoutManifest × BundleEntries)
  | [], m, entries => .ok (m, entries)
  | add :: deferred, m, entries => do
      let (m, entries) ← m.addFileToBundle entries addedBundles bundleHash add.file add.type
      addDeferred addedBundles bundleHash deferred m entries

/-- The loop over `m_bundleResources`. -/
def mergeBundles (loader : Loader) : List (UInt32 × List ModResource) → LayoutManifest →
    BundleEntries → Except Fault (LayoutManifest × BundleEntries)
  | [], m, entries => .ok (m, entries)
  | (bundleHash, resources) :: bundles, m, entries => do
      let (deferred, m) ← addFiles loader bundleHash resources [] m
      let (m, entries) ← addDeferred loader.addedBundles bundleHash deferred m entries
      mergeBundles loader bundles m entries

end LayoutManifest

/-- `MergeLayoutManifest`. -/
def mergeLayoutManifest (loader : Loader) (m : LayoutManifest) (entries : BundleEntries) :
    Except Fault (LayoutManifest × BundleEntries) := do
  let m ← LayoutManifest.addChunksAndBundles loader.mods.modResources {} m
  let m ← LayoutManifest.modifyFiles loader.vanilla loader.mods.modResources {} m
  LayoutManifest.mergeBundles loader loader.mods.bundleResources.toList m entries

/-- `ProcessManifestHk`, from the layout's bytes to those handed to the game. -/
def processManifest (loader : Loader) (data : Memory) (entries : BundleEntries) :
    Except Fault (List UInt8 × BundleEntries) := do
  let (m, entries) ← LayoutManifest.load data entries
  let (m, entries) ← mergeLayoutManifest loader m entries
  let modified ← m.save
  return (modified, entries)

end Kyber.ModLoader
