import Kyber.ModLoader.BundleManifest

/-!
# The layout manifest (`ManifestMerger.h`, `ManifestMerger.cpp`)

The layout says which piece of which file holds each asset: a table of files, for
every bundle the slice of the table that is its files, and for every chunk an
index into it. A bundle's files are its manifest, then its ebx, res and chunks,
in the order of the bundle manifest's entries.

`Load` takes the bundles' file lists not from the layout but from the vanilla
aggregation (`BundleMerger::m_bundleEntries`), which `AddFileToBundle` also keeps
its section counts in. The aggregation outlives the manifest, so it is passed in
and out of both.
-/

namespace Kyber.ModLoader

open Kyber.Lib

structure FileInfo where
  file : Int32
  offset : UInt32
  size : Int64
  deriving DecidableEq, Repr

/-- `LayoutManifest::BundleInfo`. `unk1` and `unk2` are always zero and not read. -/
structure BundleInfo where
  hash : UInt32
  files : List FileInfo
  deriving DecidableEq, Repr

structure ChunkInfo where
  guid : Guid
  fileIndex : Int32
  file : FileInfo
  deriving DecidableEq, Repr

inductive AssetType
  | ebx
  | res
  | chunk
  deriving DecidableEq, Repr

structure LayoutManifest where
  fileInfo : List FileInfo := []
  bundleInfo : Std.TreeMap UInt32 BundleInfo := {}
  chunkGuids : Std.TreeMap Guid ChunkInfo := {}

/-- `BundleMerger::BundleEntry`. A default one is what `operator[]` makes. -/
structure BundleEntry where
  hash : UInt32 := 0
  ebxCount : UInt32 := 0
  resCount : UInt32 := 0
  chunkCount : UInt32 := 0
  files : List FileInfo := []
  deriving DecidableEq, Repr

namespace BundleEntry

/-- The end of a section in the files of the bundle, behind the manifest. -/
def sectionEnd (entry : BundleEntry) : AssetType → Nat
  | .ebx => 1 + entry.ebxCount.toNat
  | .res => 1 + entry.ebxCount.toNat + entry.resCount.toNat
  | .chunk => 1 + entry.ebxCount.toNat + entry.resCount.toNat + entry.chunkCount.toNat

/-- One more file in a section. -/
def count (entry : BundleEntry) : AssetType → BundleEntry
  | .ebx => { entry with ebxCount := entry.ebxCount + 1 }
  | .res => { entry with resCount := entry.resCount + 1 }
  | .chunk => { entry with chunkCount := entry.chunkCount + 1 }

/-- A section is too large to add to the bundle. -/
def tooMany (entry : BundleEntry) : Bool :=
  200000 < entry.ebxCount || 2000000 < entry.resCount || 2000000 < entry.chunkCount

end BundleEntry

/-- `m_bundleEntries`. -/
abbrev BundleEntries := Std.TreeMap UInt32 BundleEntry

/-- `GetBundleEntries()[hash]` leaves an entry behind. -/
def BundleEntries.touch (entries : BundleEntries) (hash : UInt32) : BundleEntries :=
  entries.insertIfNew hash {}

/-- The entry that `GetBundleEntries()[hash]` refers to. -/
def BundleEntries.at (entries : BundleEntries) (hash : UInt32) : BundleEntry :=
  entries.getD hash {}

/-! ## The native layout -/

/-- The memory that a pointer leads to. -/
abbrev Memory := Nat → UInt8

def Memory.bytes (data : Memory) (offset n : Nat) : List UInt8 :=
  (List.range n).map fun i => data (offset + i)

def Memory.u32 (data : Memory) (offset : Nat) : UInt32 :=
  UInt32.ofNat (leNat (data.bytes offset 4))

def Memory.u64 (data : Memory) (offset : Nat) : UInt64 :=
  UInt64.ofNat (leNat (data.bytes offset 8))

structure NativeBundleInfo where
  hash : UInt32
  startIndex : Int32
  count : Int32
  unk1 : Int32
  unk2 : Int32
  deriving DecidableEq, Repr

structure NativeChunkInfo where
  guid : Guid
  fileIndex : Int32
  deriving DecidableEq, Repr

namespace NativeBundleInfo

/-- The places in the file table that a record is about. -/
def indices (r : NativeBundleInfo) : List Nat :=
  List.range' r.startIndex.toUInt32.toNat r.count.toUInt32.toNat

def slice (r : NativeBundleInfo) (files : List FileInfo) : List FileInfo :=
  (files.drop r.startIndex.toUInt32.toNat).take r.count.toUInt32.toNat

end NativeBundleInfo

def NativeChunkInfo.index (r : NativeChunkInfo) : Nat := r.fileIndex.toUInt32.toNat

/-- `NativeLayoutManifest` with arrays of the lengths that its counts say. -/
structure NativeLayoutManifest where
  fileInfo : List FileInfo
  bundleInfo : List NativeBundleInfo
  chunkInfo : List NativeChunkInfo
  deriving DecidableEq, Repr

namespace NativeLayoutManifest

/-- `fileInfo[i]` of the packed struct. -/
def fileInfoAt (data : Memory) (i : Nat) : FileInfo :=
  let p := 12 + 16 * i
  { file := (data.u32 p).toInt32, offset := data.u32 (p + 4), size := (data.u64 (p + 8)).toInt64 }

/-- Where `bundleInfo` begins, behind 1097786 files. -/
def bundleInfoOffset : Nat := 12 + 16 * 1097786

/-- Where `chunkInfo` begins, behind 4777 bundles. -/
def chunkInfoOffset : Nat := bundleInfoOffset + 20 * 4777

def bundleInfoAt (data : Memory) (i : Nat) : NativeBundleInfo :=
  let p := bundleInfoOffset + 20 * i
  { hash := data.u32 p
    startIndex := (data.u32 (p + 4)).toInt32
    count := (data.u32 (p + 8)).toInt32
    unk1 := (data.u32 (p + 12)).toInt32
    unk2 := (data.u32 (p + 16)).toInt32 }

def chunkInfoAt (data : Memory) (i : Nat) : NativeChunkInfo :=
  let p := chunkInfoOffset + 20 * i
  { guid := Vector.ofFn fun j => data (p + j)
    fileIndex := (data.u32 (p + 16)).toInt32 }

/-! The same records read one after the other, with arrays as long as the counts
say: how the saved layout is to be understood. -/

def readUInt32 : BufM UInt32 :=
  return UInt32.ofNat (leNat (← readUnsafe 4))

def readInt32 : BufM Int32 := return (← readUInt32).toInt32

def readInt64 : BufM Int64 :=
  return (UInt64.ofNat (leNat (← readUnsafe 8))).toInt64

def readFileInfo : BufM FileInfo := do
  let file ← readInt32
  let offset ← readUInt32
  let size ← readInt64
  return { file, offset, size }

def readBundleInfo : BufM NativeBundleInfo := do
  let hash ← readUInt32
  let startIndex ← readInt32
  let count ← readInt32
  let unk1 ← readInt32
  let unk2 ← readInt32
  return { hash, startIndex, count, unk1, unk2 }

def readChunkInfo : BufM NativeChunkInfo := do
  let guid ← getBytes16
  let fileIndex ← readInt32
  return { guid, fileIndex }

def decode : BufM NativeLayoutManifest := do
  let fileCount ← readUInt32
  let bundleCount ← readUInt32
  let chunksCount ← readUInt32
  let fileInfo ← repeatM readFileInfo fileCount.toNat
  let bundleInfo ← repeatM readBundleInfo bundleCount.toNat
  let chunkInfo ← repeatM readChunkInfo chunksCount.toNat
  return { fileInfo, bundleInfo, chunkInfo }

end NativeLayoutManifest

namespace LayoutManifest

/-! ## Load -/

/-- `for (int i = 0; i < count; i++)`, whose index must stay an `int`. -/
def checkCount (count : UInt32) : Except Fault Unit :=
  if count.toNat < 2 ^ 31 then .ok () else .error .overflow

/-- The loop over the native bundles. -/
def loadBundles (data : Memory) : Nat → Nat → LayoutManifest → BundleEntries →
    LayoutManifest × BundleEntries
  | 0, _, m, entries => (m, entries)
  | n + 1, i, m, entries =>
      let hash := (NativeLayoutManifest.bundleInfoAt data i).hash
      let info : BundleInfo := { hash, files := (entries.at hash).files }
      loadBundles data n (i + 1) { m with bundleInfo := m.bundleInfo.insert hash info }
        (entries.touch hash)

/-- The loop over the native chunks. -/
def loadChunks (data : Memory) : Nat → Nat → LayoutManifest → Except Fault LayoutManifest
  | 0, _, m => .ok m
  | n + 1, i, m =>
      let nativeChunk := NativeLayoutManifest.chunkInfoAt data i
      match m.fileInfo[nativeChunk.fileIndex.toUInt32.toNat]? with
      | none => .error .outOfBounds
      | some file =>
          let info : ChunkInfo :=
            { guid := nativeChunk.guid, fileIndex := nativeChunk.fileIndex, file }
          loadChunks data n (i + 1)
            { m with chunkGuids := m.chunkGuids.insert nativeChunk.guid info }

/-- `Load(data, size)` into a fresh manifest; `size` is not looked at. -/
def load (data : Memory) (entries : BundleEntries) :
    Except Fault (LayoutManifest × BundleEntries) := do
  let fileCount := data.u32 0
  let bundleCount := data.u32 4
  let chunksCount := data.u32 8
  checkCount fileCount
  let fileInfo := (List.range fileCount.toNat).map (NativeLayoutManifest.fileInfoAt data)
  checkCount bundleCount
  let (m, entries) := loadBundles data bundleCount.toNat 0 { fileInfo } entries
  checkCount chunksCount
  let m ← loadChunks data chunksCount.toNat 0 m
  return (m, entries)

/-! ## Save -/

/-- The first loop over the bundles: their files one after the other, and where
each bundle's begin, by the hash as an `int32_t`. -/
def layBundles : List (UInt32 × BundleInfo) → List FileInfo → Std.TreeMap Int32 UInt32 →
    List FileInfo × Std.TreeMap Int32 UInt32
  | [], files, fileIndices => (files, fileIndices)
  | (hash, info) :: bundles, files, fileIndices =>
      layBundles bundles (files ++ info.files)
        (fileIndices.insert hash.toInt32 (UInt32.ofNat files.length))

/-- The loop over the chunks, which gives each its index. -/
def layChunks : List ChunkInfo → List FileInfo → List ChunkInfo × List FileInfo
  | [], files => ([], files)
  | info :: chunks, files =>
      let files := files ++ [info.file]
      let info := { info with fileIndex := (UInt32.ofNat (files.length - 1)).toInt32 }
      let (chunks, files) := layChunks chunks files
      (info :: chunks, files)

def writeFile (info : FileInfo) : BufM Unit := do
  putInt info.file.toUInt32
  putInt info.offset
  putLong info.size.toUInt64

/-- The second loop over the bundles. -/
def writeBundle (fileIndices : Std.TreeMap Int32 UInt32) (hash : UInt32) (info : BundleInfo) :
    BufM Unit := do
  putInt hash
  match fileIndices[hash.toInt32]? with
  | none => return ()
  | some index =>
      putInt index
      putInt (UInt32.ofNat info.files.length)
      putInt 0
      putInt 0

def writeChunk (info : ChunkInfo) : BufM Unit := do
  putBytes info.guid.toFrostyLE 16
  putInt info.fileIndex.toUInt32

def write (m : LayoutManifest) : BufM Unit := do
  let chunkInfo := m.chunkGuids.toList.map Prod.snd
  let (files, fileIndices) := layBundles m.bundleInfo.toList [] {}
  let (chunkInfo, files) := layChunks chunkInfo files
  putInt (UInt32.ofNat files.length)
  putInt (UInt32.ofNat m.bundleInfo.size)
  putInt (UInt32.ofNat chunkInfo.length)
  files.forM writeFile
  m.bundleInfo.toList.forM fun (hash, info) => writeBundle fileIndices hash info
  chunkInfo.forM writeChunk

/-- `Save()`. -/
def save (m : LayoutManifest) : Except Fault (List UInt8) := do
  let ((), buf) ← m.write.run {}
  return buf.buf

/-! ## Changes -/

/-- `AddFileToBundle`. The file goes to the end of its section, whose position
follows from the counts of the aggregation; they count it from then on. A
bundle of the game is not extended when it has too many entries already. -/
def addFileToBundle (m : LayoutManifest) (entries : BundleEntries)
    (addedBundles : Std.TreeSet UInt32) (bundleHash : UInt32) (fileInfo : FileInfo)
    (assetType : AssetType) : Except Fault (LayoutManifest × BundleEntries) :=
  match m.bundleInfo[bundleHash]? with
  | none => .ok (m, entries)
  | some bundleInfo =>
      if bundleInfo.hash ≠ bundleHash then
        .ok (m, entries)
      else
        let customBundle := addedBundles.contains bundleHash
        let entry := entries.at bundleHash
        let entries := entries.touch bundleHash
        if !customBundle && entry.hash != bundleHash then
          .ok (m, entries)
        else if !customBundle && entry.tooMany then
          .ok (m, entries)
        else
          let offset := entry.sectionEnd assetType
          if offset ≤ bundleInfo.files.length then
            let files := bundleInfo.files.insertIdx offset fileInfo
            .ok ({ m with bundleInfo := m.bundleInfo.insert bundleHash { bundleInfo with files } },
              entries.insert bundleHash (entry.count assetType))
          else
            .error .outOfBounds

def setFileInfo (m : LayoutManifest) (bundleHash : UInt32) (index : Nat) (fileInfo : FileInfo) :
    Except Fault LayoutManifest :=
  match m.bundleInfo[bundleHash]? with
  | none => .ok m
  | some info =>
      if index < info.files.length then
        let files := info.files.set index fileInfo
        .ok { m with bundleInfo := m.bundleInfo.insert bundleHash { info with files } }
      else
        .error .outOfBounds

def addChunk (m : LayoutManifest) (guid : Guid) (file : FileInfo) : LayoutManifest :=
  { m with chunkGuids := m.chunkGuids.insert guid { guid, fileIndex := 0, file } }

/-- `AddBundle`: a new bundle begins with the manifest of the first one. -/
def addBundle (m : LayoutManifest) (hash : UInt32) : Except Fault LayoutManifest :=
  if m.bundleInfo.contains hash then
    .ok m
  else
    match m.bundleInfo.toList with
    | (_, { files := header :: _, .. }) :: _ =>
        .ok { m with bundleInfo := m.bundleInfo.insert hash { hash, files := [header] } }
    | _ => .error .outOfBounds

end LayoutManifest

end Kyber.ModLoader
