import Kyber.Proofs.Finalize
import Kyber.Proofs.LayoutChanges
import Kyber.Proofs.ModFiles

/-!
# Where the data of mods are in their files

What a mod brings stands behind the data table of its file: each entry of the table says where,
counted from the end of the table, and how much. `LoadMod` works this out in 64 bits and keeps
32 of them; a size is kept whole, and then goes through 32 bits into a file of the layout. Of a
chunk only a range goes into bundles, by an offset that is added and a difference that is taken
in 32 bits.

`inBlob_iff` says when all this does no harm. `built_origin` leads from a resource of the merged
mods back to the resource of a mod file that has its data, and `mergeLayoutManifest_files` says
that the layout gets no other files from mods than those.
-/

namespace Kyber.ModLoader

open Kyber.Lib

/-! ## Ranges of bytes -/

structure ByteRange where
  start : Int
  size : Int
  deriving DecidableEq, Repr

def ByteRange.Within (range blob : ByteRange) : Prop :=
  blob.start ≤ range.start ∧ 0 ≤ range.size ∧ range.start + range.size ≤ blob.start + blob.size

/-- What a file of the layout is of the file that it is in. -/
def FileInfo.range (file : FileInfo) : ByteRange where
  start := file.offset.toNat
  size := file.size.toInt

/-- The files that `MergeLayoutManifest` builds for a resource: one for the list of chunks, and
one for bundles. -/
inductive Place
  | chunkList
  | bundle (type : AssetType)

/-- Only a range of the data is used. -/
def Place.isRanged : Place → Bool
  | .bundle .chunk => true
  | _ => false

def ModResource.builtFile (r : ModResource) : Place → FileInfo
  | .chunkList => r.fileInfo
  | .bundle type => r.bundleFile type

namespace RTFrostyMod

variable (mod : RTFrostyMod) (resource : RTFrostyResource)

/-! ## The data table -/

/-- Where an entry of the data table begins. -/
def entryPlace (index : Int) : Int := mod.dataOffset.toInt + 16 * index

def entry (index : Int) : Int64 × Int64 := mod.readFp (Int64.ofInt (mod.entryPlace index))

/-- The end of the data table. -/
def tableEnd : Int := mod.entryPlace mod.dataCount.toInt

/-- The data of a resource, in the mod's file. -/
def blob : ByteRange where
  start := mod.tableEnd + (mod.entry resource.resourceIndex.toInt).1.toInt
  size := (mod.entry resource.resourceIndex.toInt).2.toInt

/-- The data table and all that it tells of is in the file, and it has the entries that the
resources name. -/
structure TableInFile (fileSize : Nat) : Prop where
  fileSize_lt : fileSize < 2 ^ 63
  dataOffset : 0 ≤ mod.dataOffset.toInt
  indices : ∀ resource ∈ mod.resources, resource.resourceIndex ≠ -1 →
    0 ≤ resource.resourceIndex.toInt ∧ resource.resourceIndex.toInt < mod.dataCount.toInt
  entries : ∀ index, 0 ≤ index → index < mod.dataCount.toInt →
    0 ≤ (mod.entry index).1.toInt ∧ 0 ≤ (mod.entry index).2.toInt ∧
      mod.tableEnd + (mod.entry index).1.toInt + (mod.entry index).2.toInt ≤ fileSize

/-- The part of its data that a resource is to have at a place. -/
def slice (place : Place) : ByteRange :=
  if place.isRanged ∧ resource.rangeStart ≠ 0 then
    { start := (mod.blob resource).start + resource.rangeStart.toNat
      size := resource.rangeEnd.toNat - resource.rangeStart.toNat }
  else
    mod.blob resource

/-- The file is the part of the resource's data that it is to be, and nothing outside of them:
what leads to it has not lost a bit. -/
structure InBlob (place : Place) (file : FileInfo) : Prop where
  /-- the table is read at the resource's entry -/
  entry : (mod.soughtPlace resource).toInt = mod.entryPlace resource.resourceIndex.toInt
  start : file.range.start = (mod.slice resource place).start
  size : file.range.size = (mod.slice resource place).size
  within : file.range.Within (mod.blob resource)

/-- The entry can be sought, the part begins where 32 bits reach, and its size is one of 32 bits
or the range one of the data. -/
structure Addressable (place : Place) : Prop where
  entry : mod.entryPlace resource.resourceIndex.toInt < 2 ^ 31
  start : (mod.slice resource place).start < 2 ^ 32
  size : if place.isRanged ∧ resource.rangeStart ≠ 0 then
      resource.rangeStart ≤ resource.rangeEnd ∧
        (resource.rangeEnd.toNat : Int) ≤ (mod.blob resource).size
    else (mod.blob resource).size < 2 ^ 32

end RTFrostyMod

/-! ## What 32 bits keep -/

theorem low_toInt (x : Int64) : (x.toUInt64.toUInt32.toNat : Int) = x.toInt % 2 ^ 32 := by
  have hx : x.toInt = (x.toUInt64.toNat : Int).bmod (2 ^ 64) := by
    rw [← Int64.toInt_toBitVec, BitVec.toInt_eq_toNat_bmod]
    rfl
  have hlt := x.toUInt64.toNat_lt
  have hmod := @Int.bmod_emod x.toUInt64.toNat (2 ^ 64)
  rw [UInt64.toNat_toUInt32]
  omega

theorem toInt_wide (y : UInt32) : y.toUInt64.toInt64.toInt = y.toNat := by
  have hlt := y.toNat_lt
  rw [← Int64.toInt_toBitVec, BitVec.toInt_eq_toNat_bmod]
  show (y.toUInt64.toNat : Int).bmod (2 ^ 64) = _
  rw [UInt32.toNat_toUInt64, Int.bmod_eq_of_le (by omega) (by omega)]

theorem low_add (x y : Int64) : (x + y).toInt % 2 ^ 32 = (x.toInt + y.toInt) % 2 ^ 32 := by
  have hmod := @Int.bmod_emod (x.toInt + y.toInt) (2 ^ 64)
  rw [Int64.toInt_add]
  omega

/-- A product that leaves its 32 bits has the same low ones. -/
theorem low_times (c : Int32) : (c * 16).toInt64.toInt % 2 ^ 32 = 16 * c.toInt % 2 ^ 32 := by
  have hmod := @Int.bmod_emod (c.toInt * 16) (2 ^ 32)
  rw [Int32.toInt_toInt64, Int32.toInt_mul]
  show (c.toInt * 16).bmod (2 ^ 32) % 2 ^ 32 = _
  omega

namespace RTFrostyMod

variable {mod : RTFrostyMod} {resource : RTFrostyResource} {fileSize : Nat}

theorem soughtPlace_iff (h : 0 ≤ mod.entryPlace resource.resourceIndex.toInt) :
    (mod.soughtPlace resource).toInt = mod.entryPlace resource.resourceIndex.toInt ↔
      mod.entryPlace resource.resourceIndex.toInt < 2 ^ 31 := by
  have hlow := low_add mod.dataOffset (resource.resourceIndex * 16).toInt64
  have htimes := low_times resource.resourceIndex
  rw [soughtPlace, Int32.toInt_toInt64, Int64.toInt_toInt32]
  rw [entryPlace] at h ⊢
  generalize (mod.dataOffset + (resource.resourceIndex * 16).toInt64).toInt = x at hlow ⊢
  have hmod := @Int.bmod_emod x (2 ^ 32)
  have hle := @Int.le_bmod x (2 ^ 32) (by decide)
  have hlt := @Int.bmod_lt x (2 ^ 32) (by decide)
  omega

/-- The resource has its data from this one of the mod. -/
structure DataOf (mod : RTFrostyMod) (resource : RTFrostyResource) (fbFile : Int32)
    (data : ModResourceData) : Prop where
  fbFile_eq : data.fbFile = fbFile
  dataOffset_eq : data.dataOffset = (mod.locate resource).1.toUInt64.toUInt32
  size_eq : data.size = (mod.locate resource).2.toUInt64
  rangeStart_eq : data.rangeStart = resource.rangeStart
  rangeEnd_eq : data.rangeEnd = resource.rangeEnd

/-- A resource with data, in a file that has its table. -/
structure Located (mod : RTFrostyMod) (resource : RTFrostyResource) : Prop where
  index : resource.resourceIndex ≠ -1
  entry : 0 ≤ mod.entryPlace resource.resourceIndex.toInt
  start : 0 ≤ (mod.blob resource).start
  size : 0 ≤ (mod.blob resource).size
  fits : (mod.blob resource).start + (mod.blob resource).size < 2 ^ 63

theorem TableInFile.located (h : mod.TableInFile fileSize) (hmem : resource ∈ mod.resources)
    (hindex : resource.resourceIndex ≠ -1) : mod.Located resource := by
  have hfile := h.fileSize_lt
  have hoffset := h.dataOffset
  obtain ⟨hpos, hlt⟩ := h.indices resource hmem hindex
  obtain ⟨hstart, hsize, hfits⟩ := h.entries _ hpos hlt
  have hend : 0 ≤ mod.tableEnd := by
    rw [tableEnd, entryPlace]
    omega
  refine ⟨hindex, ?_, ?_, hsize, ?_⟩
  · rw [entryPlace]
    omega
  · show 0 ≤ mod.tableEnd + _
    omega
  · show mod.tableEnd + _ + (mod.entry resource.resourceIndex.toInt).2.toInt < _
    omega

/-- What is read of the table: the low bits of the place are right whatever `dataCount` is. -/
theorem Located.locate (h : mod.Located resource)
    (hseek : mod.entryPlace resource.resourceIndex.toInt < 2 ^ 31) :
    ((mod.locate resource).1.toUInt64.toUInt32.toNat : Int) =
        (mod.blob resource).start % 2 ^ 32 ∧
      (mod.locate resource).2.toInt = (mod.blob resource).size := by
  have hplace : mod.soughtPlace resource
      = Int64.ofInt (mod.entryPlace resource.resourceIndex.toInt) := by
    rw [← (soughtPlace_iff h.entry).mpr hseek, Int64.ofInt_toInt]
  rw [RTFrostyMod.locate, if_pos h.index, hplace]
  refine ⟨?_, rfl⟩
  show (((mod.dataOffset + (mod.dataCount * 16).toInt64 +
    (mod.entry resource.resourceIndex.toInt).1).toUInt64.toUInt32.toNat : Nat) : Int) =
    (mod.dataOffset.toInt + 16 * mod.dataCount.toInt +
      (mod.entry resource.resourceIndex.toInt).1.toInt) % 2 ^ 32
  have hcount := low_times mod.dataCount
  have htable := low_add mod.dataOffset (mod.dataCount * 16).toInt64
  have hblob := low_add (mod.dataOffset + (mod.dataCount * 16).toInt64)
    (mod.entry resource.resourceIndex.toInt).1
  rw [low_toInt]
  omega

/-- The 32 bits of the file that is built, and what they should be. -/
theorem DataOf.range {fbFile : Int32} {r : ModResource} (h : mod.DataOf resource fbFile r.data)
    (hl : mod.Located resource) (hseek : mod.entryPlace resource.resourceIndex.toInt < 2 ^ 31)
    (place : Place) :
    (r.builtFile place).range.start = (mod.slice resource place).start % 2 ^ 32 ∧
      (r.builtFile place).range.size = (mod.slice resource place).size % 2 ^ 32 := by
  obtain ⟨hoffset, hsize⟩ := hl.locate hseek
  have hpos := hl.size
  have hwhole : (r.fileInfo.range.start = (mod.blob resource).start % 2 ^ 32) ∧
      r.fileInfo.range.size = (mod.blob resource).size % 2 ^ 32 := by
    refine ⟨?_, ?_⟩
    · show (r.data.dataOffset.toNat : Int) = _
      rw [h.dataOffset_eq, hoffset]
    · show r.data.size.toUInt32.toUInt64.toInt64.toInt = _
      rw [toInt_wide, h.size_eq, low_toInt, hsize]
  have hstart : (r.data.dataOffset.toNat : Int) = (mod.blob resource).start % 2 ^ 32 := hwhole.1
  have hlow : (r.data.size.toUInt32.toNat : Int) = (mod.blob resource).size % 2 ^ 32 := by
    rw [h.size_eq, low_toInt, hsize]
  rw [slice]
  cases place with
  | chunkList => exact hwhole
  | bundle type =>
      cases type with
      | ebx => exact hwhole
      | res => exact hwhole
      | chunk =>
          have hranged : (Place.bundle .chunk).isRanged = true := rfl
          show ((r.data.dataOffset + r.data.rangeStart).toNat : Int) = _ ∧
            (if r.data.rangeStart ≠ 0 then r.data.rangeEnd - r.data.rangeStart
              else r.data.size.toUInt32).toUInt64.toInt64.toInt = _
          rw [toInt_wide, h.rangeStart_eq, h.rangeEnd_eq, UInt32.toNat_add]
          by_cases hzero : resource.rangeStart = 0
          · rw [if_neg (fun hne => hne.2 hzero), if_neg (fun hne => hne hzero), hzero]
            refine ⟨?_, hlow⟩
            rw [UInt32.toNat_zero]
            omega
          · rw [if_pos ⟨hranged, hzero⟩, if_pos hzero, UInt32.toNat_sub]
            have hend := resource.rangeEnd.toNat_lt
            have hbegin := resource.rangeStart.toNat_lt
            refine ⟨?_, ?_⟩
            · show _ = ((mod.blob resource).start + resource.rangeStart.toNat) % 2 ^ 32
              omega
            · show _ = ((resource.rangeEnd.toNat : Int) - resource.rangeStart.toNat) % 2 ^ 32
              omega

/-- A part whose size is one of 32 bits is one of the data. -/
theorem Located.size_iff (h : mod.Located resource) (place : Place) :
    (if place.isRanged ∧ resource.rangeStart ≠ 0 then
        resource.rangeStart ≤ resource.rangeEnd ∧
          (resource.rangeEnd.toNat : Int) ≤ (mod.blob resource).size
      else (mod.blob resource).size < 2 ^ 32) ↔
      (mod.slice resource place).size = (mod.slice resource place).size % 2 ^ 32 ∧
        (mod.slice resource place).Within (mod.blob resource) := by
  have hsize := h.size
  have hbegin := resource.rangeStart.toNat_lt
  have hend := resource.rangeEnd.toNat_lt
  rw [slice]
  split
  next =>
    rw [UInt32.le_iff_toNat_le, ByteRange.Within]
    dsimp only
    omega
  next =>
    rw [ByteRange.Within]
    omega

theorem Located.slice_start_nonneg (h : mod.Located resource) (place : Place) :
    0 ≤ (mod.slice resource place).start := by
  have hstart := h.start
  rw [slice]
  split
  next =>
    dsimp only
    omega
  next => exact hstart

/-- What is built for a resource is the part of its data that it is to be exactly if 32 bits
suffice for it, and a range is one of the data. -/
theorem DataOf.inBlob_iff {fbFile : Int32} {r : ModResource}
    (h : mod.DataOf resource fbFile r.data) (hl : mod.Located resource) (place : Place) :
    mod.InBlob resource place (r.builtFile place) ↔ mod.Addressable resource place := by
  have hseek := soughtPlace_iff hl.entry
  have hpart := hl.size_iff place
  have hnonneg := hl.slice_start_nonneg place
  constructor
  · intro hin
    have hentry := hseek.mp hin.entry
    obtain ⟨hstart, hsize⟩ := h.range hl hentry place
    have hwithin := hin.within
    rw [ByteRange.Within, hin.start, hin.size] at hwithin
    rw [hin.start] at hstart
    rw [hin.size] at hsize
    exact ⟨hentry, by omega, hpart.mpr ⟨hsize, hwithin⟩⟩
  · intro ha
    obtain ⟨hstart, hsize⟩ := h.range hl ha.entry place
    obtain ⟨hkept, hwithin⟩ := hpart.mp ha.size
    have hlt := ha.start
    have hs : (r.builtFile place).range.start = (mod.slice resource place).start := by omega
    have hz : (r.builtFile place).range.size = (mod.slice resource place).size := by omega
    refine ⟨hseek.mpr ha.entry, hs, hz, ?_⟩
    rw [ByteRange.Within, hs, hz]
    exact hwithin

end RTFrostyMod

/-! ## Whose data a resource has -/

theorem RTFrostyMod.modResource_dataOf {mod : RTFrostyMod} {vanilla : VanillaTables}
    {fbFile : Int32} {resource : RTFrostyResource} {r : ModResource}
    (h : mod.modResource vanilla fbFile resource = some r) :
    mod.DataOf resource fbFile r.data ∧ r.resourceIndex = resource.resourceIndex ∧
      r.uniqueIdWithType = idWithType resource.type resource.name := by
  unfold RTFrostyMod.modResource at h
  split at h
  next => cases h
  next =>
    dsimp only at h
    split at h
    next => cases h
    next =>
      cases h
      exact ⟨⟨rfl, rfl, rfl, rfl, rfl⟩, rfl, rfl⟩

namespace LoadedMods

variable {vanilla : VanillaTables}

/-- The files that could be loaded and the mods go together one by one. -/
theorem loadMods_madeOf {calls done : List (ByteString × ModFile)} {loader loader' : LoadedMods}
    (hrun : loadMods vanilla calls loader = .ok loader')
    (h : List.Forall₂ (MadeOf vanilla) done loader.mods) :
    List.Forall₂ (MadeOf vanilla) (done ++ calls.filter fun call => call.2.isLoaded)
      loader'.mods := by
  induction calls generalizing loader done with
  | nil =>
      cases hrun
      rw [List.filter_nil, List.append_nil]
      exact h
  | cons call calls ih =>
      obtain ⟨loader₁, hcall, hrest⟩ := bind_eq_ok hrun
      rcases loadMod_cases hcall with ⟨hnot, rfl⟩ | ⟨hloaded, loaded, hmade, hmods, -⟩
      · rw [List.filter_cons_of_neg (by rw [hnot]; exact Bool.false_ne_true)]
        exact ih hrest h
      · rw [List.filter_cons, if_pos hloaded, List.append_cons]
        refine ih hrest ?_
        rw [hmods]
        exact List.rel_append h (.cons hmade .nil)

end LoadedMods

/-- A resource that the mods give data to has those that one of the same id was loaded with. -/
theorem modResources_data {mods : List KyberMod} {r : ModResource}
    (hr : r ∈ (finalizeModLoads mods).modResources) (hindex : r.resourceIndex ≠ -1) :
    ∃ m ∈ mods, ∃ source ∈ m.resources, source.resourceIndex ≠ -1 ∧ source.data = r.data ∧
      source.uniqueIdWithType = r.uniqueIdWithType := by
  rw [modResources_eq] at hr
  obtain ⟨r₀, hr₀, rfl⟩ := List.mem_map.mp hr
  obtain ⟨m, hm, hmem⟩ := mem_byPriority.mp (mem_sorted.mp hr₀)
  rw [inheritData_uniqueIdWithType]
  rw [inheritData] at hindex ⊢
  split at hindex
  next hkeeps =>
    rw [if_pos hkeeps]
    exact ⟨m, hm, r₀, hmem, hindex, rfl, rfl⟩
  next hkeeps =>
    rw [if_neg hkeeps]
    rw [(sources_of mods).data] at hindex ⊢
    cases hsource : source (sorted mods) r₀.uniqueIdWithType with
    | none =>
        rw [hsource] at hindex
        exact absurd (not_or.mp hkeeps).2 (not_not.mpr hindex)
    | some r' =>
        obtain ⟨m', hm', hmem'⟩ :=
          mem_byPriority.mp (mem_sorted.mp (List.mem_of_find?_eq_some hsource))
        have hsupplies := source_supplies hsource
        exact ⟨m', hm', r', hmem', ((handlerFreeData_iff r').mp hsupplies.1).2, rfl, hsupplies.2⟩

theorem mem_modResources {mods : List KyberMod} {m : KyberMod} {r : ModResource} (hm : m ∈ mods)
    (hr : r ∈ m.resources) (hdata : r.handlerFreeData = true) :
    r ∈ (finalizeModLoads mods).modResources := by
  rw [modResources_eq]
  have hsorted : r ∈ sorted mods := mem_sorted.mpr (mem_byPriority.mpr ⟨m, hm, hr⟩)
  exact List.mem_map.mpr ⟨r, hsorted, inheritData_of_data hdata⟩

/-! ## The files of the merged layout -/

/-- `MergeLayoutManifest` builds a file for the resource. -/
inductive Builds (mods : FinalizedMods) (r : ModResource) : Place → Prop
  | chunkList (mem : r ∈ mods.modResources) (type_eq : r.type = .chunk)
      (index : r.resourceIndex ≠ -1) : Builds mods r .chunkList
  | bundle {type : AssetType} (mem : r ∈ mods.modResources)
      (data : r.handlerHash = 0 ∧ r.resourceIndex ≠ -1) (type_eq : r.type.assetType = some type) :
      Builds mods r (.bundle type)

namespace LayoutManifest

/-- Every file of the bundles and of the chunks is such. -/
structure AllFiles (P : FileInfo → Prop) (m : LayoutManifest) : Prop where
  bundles : ∀ (b : UInt32) (info : BundleInfo), m.bundleInfo[b]? = some info →
    ∀ file ∈ info.files, P file
  chunks : ∀ (guid : Guid) (info : ChunkInfo), m.chunkGuids[guid]? = some info → P info.file

variable {P : FileInfo → Prop} {m m' : LayoutManifest}

theorem AllFiles.insertBundle (h : m.AllFiles P) {info : BundleInfo} (b : UInt32)
    (hinfo : ∀ file ∈ info.files, P file) :
    AllFiles P { m with bundleInfo := m.bundleInfo.insert b info } where
  bundles b' info' hget := by
    rw [getElem?_insert_eq] at hget
    split at hget
    next =>
      cases hget
      exact hinfo
    next => exact h.bundles b' info' hget
  chunks := h.chunks

theorem AllFiles.addChunk (h : m.AllFiles P) {file : FileInfo} (hfile : P file) (guid : Guid) :
    AllFiles P (m.addChunk guid file) where
  bundles := h.bundles
  chunks guid' info hget := by
    rw [LayoutManifest.addChunk] at hget
    dsimp only at hget
    rw [getElem?_insert_eq] at hget
    split at hget
    next =>
      cases hget
      exact hfile
    next => exact h.chunks guid' info hget

theorem AllFiles.addBundle (h : m.AllFiles P) {hash : UInt32} (hadd : m.addBundle hash = .ok m') :
    AllFiles P m' := by
  unfold LayoutManifest.addBundle at hadd
  split at hadd
  next =>
    cases hadd
    exact h
  next =>
    split at hadd
    next b hash' header files rest hlist =>
      cases hadd
      refine h.insertBundle hash ?_
      intro file hfile
      obtain rfl := List.mem_singleton.mp hfile
      have hmem : (b, { hash := hash', files := file :: files }) ∈ m.bundleInfo.toList := by
        rw [hlist]
        exact List.mem_cons_self
      exact h.bundles b _ (Std.TreeMap.mem_toList_iff_getElem?_eq_some.mp hmem) file
        List.mem_cons_self
    next => cases hadd

theorem AllFiles.setFileInfo (h : m.AllFiles P) {file : FileInfo} (hfile : P file) {b : UInt32}
    {index : Nat} (hset : m.setFileInfo b index file = .ok m') : AllFiles P m' := by
  obtain ⟨-, rfl⟩ | ⟨info, hget, -, rfl⟩ := setFileInfo_ok hset
  · exact h
  · refine h.insertBundle b ?_
    intro file' hmem
    rcases List.mem_or_eq_of_mem_set hmem with hold | rfl
    · exact h.bundles b info hget file' hold
    · exact hfile

theorem AllFiles.addFileToBundle (h : m.AllFiles P) {file : FileInfo} (hfile : P file)
    {entries entries' : BundleEntries} {addedBundles : Std.TreeSet UInt32} {b : UInt32}
    {type : AssetType}
    (hadd : m.addFileToBundle entries addedBundles b file type = .ok (m', entries')) :
    AllFiles P m' := by
  cases addFileToBundle_ok hadd with
  | ignored => exact h
  | inserted get _ _ bound =>
      refine h.insertBundle b ?_
      intro file' hmem
      rcases List.eq_or_mem_of_mem_insertIdx hmem with rfl | hold
      · exact hfile
      · exact h.bundles b _ get file' hold

theorem AllFiles.addChunksAndBundles (h : m.AllFiles P) {rs : List ModResource}
    (hrs : ∀ r ∈ rs, r.type = .chunk → r.resourceIndex ≠ -1 → P r.fileInfo)
    {modifiedChunks : Std.TreeSet ByteString}
    (hok : addChunksAndBundles rs modifiedChunks m = .ok m') : AllFiles P m' := by
  induction rs generalizing modifiedChunks m with
  | nil =>
      cases hok
      exact h
  | cons r rs ih =>
      have ih := fun {m} hm {modifiedChunks} => @ih m hm (fun r' hr' => hrs r' (.tail _ hr'))
        modifiedChunks
      rw [LayoutManifest.addChunksAndBundles] at hok
      split at hok
      next htype =>
        split at hok
        next => exact ih h hok
        next hindex =>
          split at hok
          next => exact ih h hok
          next => exact ih (h.addChunk (hrs r List.mem_cons_self htype hindex) _) hok
      next =>
        split at hok
        next =>
          obtain ⟨m₁, hadd, hok⟩ := bind_eq_ok hok
          exact ih (h.addBundle hadd) hok
        next => exact ih h hok

theorem AllFiles.modifyFiles (h : m.AllFiles P) {rs : List ModResource}
    (hrs : ∀ r ∈ rs, ∀ type, r.handlerHash = 0 ∧ r.resourceIndex ≠ -1 →
      r.type.assetType = some type → P (r.bundleFile type))
    {vanilla : VanillaTables} {modified : Std.TreeSet UInt32}
    (hok : modifyFiles vanilla rs modified m = .ok m') : AllFiles P m' :=
  modifyFiles_rule (R := fun m m' => AllFiles P m → AllFiles P m') (fun _ h => h)
    (fun h₁ h₂ h => h₂ (h₁ h)) (fun hfile hset h => h.setFileInfo hfile hset) hrs hok h

/-- The files that are still to be added. -/
theorem AllFiles.addFiles (h : m.AllFiles P) {loader : Loader} {b : UInt32}
    {rs : List ModResource}
    (hrs : ∀ r ∈ rs, ∀ type, r.handlerHash = 0 ∧ r.resourceIndex ≠ -1 →
      r.type.assetType = some type → P (r.bundleFile type))
    (hvanilla : ∀ r ∈ rs, ∀ type file, unchangedFile loader r type = .ok (some file) → P file)
    {deferred deferred' : List DeferredBundleFileAdd} (hdeferred : ∀ add ∈ deferred, P add.file)
    (hok : addFiles loader b rs deferred m = .ok (deferred', m')) :
    AllFiles P m' ∧ ∀ add ∈ deferred', P add.file := by
  induction rs generalizing deferred m with
  | nil =>
      cases hok
      exact ⟨h, hdeferred⟩
  | cons r rs ih =>
      obtain ⟨⟨deferred₁, m₁⟩, hadd, hok⟩ := bind_eq_ok hok
      have hr := hrs r List.mem_cons_self
      have happend : ∀ type file, P file →
          ∀ add ∈ deferred ++ [DeferredBundleFileAdd.mk type file], P add.file := by
        intro type file hfile add hmem
        rcases List.mem_append.mp hmem with hold | hnew
        · exact hdeferred add hold
        · obtain rfl := List.mem_singleton.mp hnew
          exact hfile
      have hstep : AllFiles P m₁ ∧ ∀ add ∈ deferred₁, P add.file := by
        cases addFile_ok hadd with
        | ignored => exact ⟨h, hdeferred⟩
        | @modified type _ _ htype hdata _ hset =>
            exact ⟨h.setFileInfo (hr type hdata htype) hset, hdeferred⟩
        | @added type htype hdata => exact ⟨h, happend _ _ (hr type hdata htype)⟩
        | @unchanged type file _ _ hfile =>
            exact ⟨h, happend _ _ (hvanilla r List.mem_cons_self type file hfile)⟩
      exact ih hstep.1 (fun r' hr' => hrs r' (List.mem_cons_of_mem r hr'))
        (fun r' hr' => hvanilla r' (List.mem_cons_of_mem r hr')) hstep.2 hok

theorem AllFiles.addDeferred (h : m.AllFiles P) {addedBundles : Std.TreeSet UInt32} {b : UInt32}
    {deferred : List DeferredBundleFileAdd} (hdeferred : ∀ add ∈ deferred, P add.file)
    {entries entries' : BundleEntries}
    (hok : addDeferred addedBundles b deferred m entries = .ok (m', entries')) :
    AllFiles P m' := by
  induction deferred generalizing m entries with
  | nil =>
      cases hok
      exact h
  | cons add deferred ih =>
      obtain ⟨⟨m₁, entries₁⟩, hadd, hok⟩ := bind_eq_ok hok
      exact ih (h.addFileToBundle (hdeferred add List.mem_cons_self) hadd)
        (fun add' hmem => hdeferred add' (List.mem_cons_of_mem add hmem)) hok

theorem AllFiles.mergeBundles (h : m.AllFiles P) {loader : Loader}
    {bundles : List (UInt32 × List ModResource)}
    (hrs : ∀ bundle ∈ bundles, ∀ r ∈ bundle.2, ∀ type,
      r.handlerHash = 0 ∧ r.resourceIndex ≠ -1 → r.type.assetType = some type →
        P (r.bundleFile type))
    (hvanilla : ∀ bundle ∈ bundles, ∀ r ∈ bundle.2, ∀ type file,
      unchangedFile loader r type = .ok (some file) → P file)
    {entries entries' : BundleEntries}
    (hok : mergeBundles loader bundles m entries = .ok (m', entries')) : AllFiles P m' := by
  induction bundles generalizing m entries with
  | nil =>
      cases hok
      exact h
  | cons bundle bundles ih =>
      obtain ⟨⟨deferred, m₁⟩, hfiles, hok⟩ := bind_eq_ok hok
      obtain ⟨⟨m₂, entries₂⟩, hadd, hok⟩ := bind_eq_ok hok
      obtain ⟨h₁, hdeferred⟩ := h.addFiles (hrs bundle List.mem_cons_self)
        (hvanilla bundle List.mem_cons_self)
        (fun add hmem => absurd hmem List.not_mem_nil) hfiles
      exact ih (h₁.addDeferred hdeferred hadd)
        (fun bundle' hmem => hrs bundle' (List.mem_cons_of_mem bundle hmem))
        (fun bundle' hmem => hvanilla bundle' (List.mem_cons_of_mem bundle hmem)) hok

end LayoutManifest

/-- A file of the merged layout is one that it had, one of the game, or one that is built for a
resource of the mods. -/
inductive FileFrom (loader : Loader) (m : LayoutManifest) : FileInfo → Prop
  | inBundle {b : UInt32} {info : BundleInfo} {file : FileInfo}
      (get : m.bundleInfo[b]? = some info) (mem : file ∈ info.files) : FileFrom loader m file
  | ofChunk {guid : Guid} {info : ChunkInfo} (get : m.chunkGuids[guid]? = some info) :
      FileFrom loader m info.file
  | vanilla {r : ModResource} {type : AssetType} {file : FileInfo}
      (unchanged : LayoutManifest.unchangedFile loader r type = .ok (some file)) :
      FileFrom loader m file
  | built {r : ModResource} {place : Place} (builds : Builds loader.mods r place) :
      FileFrom loader m (r.builtFile place)

theorem mergeLayoutManifest_files {mods : List KyberMod} {loader : Loader}
    (hmods : loader.mods = finalizeModLoads mods) {m m' : LayoutManifest}
    {entries entries' : BundleEntries}
    (h : mergeLayoutManifest loader m entries = .ok (m', entries')) :
    m'.AllFiles (FileFrom loader m) := by
  obtain ⟨m₁, hadd, h⟩ := bind_eq_ok h
  obtain ⟨m₂, hmodify, h⟩ := bind_eq_ok h
  have hold : m.AllFiles (FileFrom loader m) :=
    ⟨fun _ _ hget _ hmem => .inBundle hget hmem, fun _ _ hget => .ofChunk hget⟩
  have h₁ := hold.addChunksAndBundles
    (fun r hr htype hindex => .built (.chunkList hr htype hindex)) hadd
  have h₂ := h₁.modifyFiles (fun r hr type hdata htype => .built (.bundle hr hdata htype)) hmodify
  refine h₂.mergeBundles ?_ (fun _ _ _ _ _ _ hfile => .vanilla hfile) h
  intro bundle hbundle r hr type hdata htype
  refine .built (.bundle ?_ hdata htype)
  rw [hmods] at hbundle ⊢
  refine resourcesOf_subset (b := bundle.1) ?_
  rw [FinalizedMods.resourcesOf, Std.TreeMap.getD_eq_getD_getElem?,
    Std.TreeMap.mem_toList_iff_getElem?_eq_some.mp hbundle]
  exact hr

/-! ## From the mod files to the layout -/

/-- `r` has its data from this resource, of the mod that was loaded from this file. The resource
is the one that `r` was made of, or one of the same id that `r` inherits from. -/
structure Origin (calls : List (ByteString × ModFile)) (mods : List LoadedMod) (r : ModResource)
    (loaded : LoadedMod) (mod : RTFrostyMod) (resource : RTFrostyResource) : Prop where
  number : ∃ i : Nat, (calls.filter fun call => call.2.isLoaded)[i]?
      = some (loaded.path, .loaded mod) ∧ mods[i]? = some loaded
  mem : resource ∈ mod.resources
  index : resource.resourceIndex ≠ -1
  id_eq : r.uniqueIdWithType = idWithType resource.type resource.name
  data : mod.DataOf resource loaded.fbFile r.data

/-- What `FinalizeModLoads` makes of the mods that have been loaded. -/
def LoadedMods.finalized (loader : LoadedMods) : FinalizedMods :=
  finalizeModLoads (loader.mods.map LoadedMod.toKyberMod)

theorem Builds.mem_index {mods : FinalizedMods} {r : ModResource} {place : Place}
    (h : Builds mods r place) : r ∈ mods.modResources ∧ r.resourceIndex ≠ -1 := by
  cases h with
  | chunkList mem _ index => exact ⟨mem, index⟩
  | bundle mem data => exact ⟨mem, data.2⟩

theorem Builds.of_chunk {mods : FinalizedMods} {r : ModResource} (mem : r ∈ mods.modResources)
    (type_eq : r.type = .chunk) (data : r.handlerHash = 0 ∧ r.resourceIndex ≠ -1) :
    Builds mods r .chunkList ∧ Builds mods r (.bundle .chunk) :=
  ⟨.chunkList mem type_eq data.2, .bundle mem data (by rw [type_eq]; rfl)⟩

theorem built_origin {vanilla : VanillaTables} {calls : List (ByteString × ModFile)}
    {loader : LoadedMods} (hrun : LoadedMods.loadMods vanilla calls {} = .ok loader)
    {r : ModResource} {place : Place} (h : Builds loader.finalized r place) :
    ∃ loaded mod resource, Origin calls loader.mods r loaded mod resource := by
  obtain ⟨hmem, hindex⟩ := h.mem_index
  obtain ⟨m, hm, source, hsource, hdata, heq, hid⟩ := modResources_data hmem hindex
  obtain ⟨loaded, hloaded, rfl⟩ := List.mem_map.mp hm
  obtain ⟨i, hi⟩ := List.mem_iff_getElem?.mp hloaded
  have hpairs := LoadedMods.loadMods_madeOf hrun .nil
  rw [List.nil_append] at hpairs
  obtain ⟨hlength, hget⟩ := List.forall₂_iff_get.mp hpairs
  have hlt := (List.getElem?_eq_some_iff.mp hi).1
  have hmade := hget i (by omega) hlt
  rw [List.get_eq_getElem, List.get_eq_getElem,
    (List.getElem?_eq_some_iff.mp hi).2] at hmade
  obtain ⟨mod, hcall, hresources⟩ := hmade
  obtain ⟨resource, hresource, hmade⟩ := hresources source hsource
  obtain ⟨hdataOf, hsame, hsourceId⟩ := RTFrostyMod.modResource_dataOf hmade
  refine ⟨loaded, mod, resource, ⟨i, ?_, hi⟩, hresource, ?_, ?_, ?_⟩
  · rw [List.getElem?_eq_getElem (by omega), hcall]
  · rw [← hsame]
    exact hdata
  · rw [← hid]
    exact hsourceId
  · rw [← heq]
    exact hdataOf

theorem ModResource.builtFile_file (r : ModResource) (place : Place) :
    (r.builtFile place).file = r.data.fbFile := by
  cases place with
  | chunkList => rfl
  | bundle type => cases type <;> rfl

/-- Whatever mods are loaded, a file that is built for a resource is the part of its data that it
is to be exactly if the entry can be sought, the part begins where 32 bits reach, and its size is
one of 32 bits or its range one of the data. The layout gets no other files from mods. -/
theorem builtFiles_iff {vanilla : VanillaTables} {calls : List (ByteString × ModFile)}
    {loader : LoadedMods} (hrun : LoadedMods.loadMods vanilla calls {} = .ok loader)
    (htables : ∀ path mod, (path, .loaded mod) ∈ calls → ∃ fileSize, mod.TableInFile fileSize) :
    (∀ r place, Builds loader.finalized r place → ∃ loaded mod resource,
      Origin calls loader.mods r loaded mod resource ∧
        (r.builtFile place).file = loaded.fbFile ∧
        (mod.InBlob resource place (r.builtFile place) ↔ mod.Addressable resource place)) ∧
      ∀ (l : Loader) m m' entries entries', l.mods = loader.finalized →
        mergeLayoutManifest l m entries = .ok (m', entries') → m'.AllFiles (FileFrom l m) := by
  refine ⟨?_, fun l m m' entries entries' hmods h => mergeLayoutManifest_files hmods h⟩
  intro r place hbuilds
  obtain ⟨loaded, mod, resource, horigin⟩ := built_origin hrun hbuilds
  obtain ⟨i, hcall, -⟩ := horigin.number
  obtain ⟨fileSize, htable⟩ :=
    htables _ _ (List.mem_of_mem_filter (List.mem_of_getElem? hcall))
  have hfile := (r.builtFile_file place).trans horigin.data.fbFile_eq
  exact ⟨loaded, mod, resource, horigin, hfile,
    horigin.data.inBlob_iff (htable.located horigin.mem horigin.index) place⟩

/-- A chunk of eight bytes, at an offset behind a table of one entry. -/
def chunkResource (rangeStart rangeEnd : UInt32) : RTFrostyResource where
  type := .chunk
  resourceIndex := 0
  name := []
  size := 8
  handlerHash := 0
  addedBundles := []
  resType := 0
  resRid := 0
  resMeta := Vector.replicate 16 0
  rangeStart
  rangeEnd
  logicalOffset := 0
  logicalSize := 8
  h32 := 0
  firstMip := -1

def chunkMod (offset : Int64) (rangeStart rangeEnd : UInt32) : RTFrostyMod where
  dataOffset := 100
  dataCount := 1
  resources := [chunkResource rangeStart rangeEnd]
  readFp _ := (offset, 8)
  readModResource _ := none

theorem chunkMod_tableInFile {offset : Int64} (rangeStart rangeEnd : UInt32)
    (h : 0 ≤ offset.toInt) (hlt : offset.toInt < 2 ^ 40) :
    (chunkMod offset rangeStart rangeEnd).TableInFile (2 ^ 41) where
  fileSize_lt := by omega
  dataOffset := show (0 : Int) ≤ 100 by omega
  indices resource hmem _ := by
    obtain rfl := List.mem_singleton.mp hmem
    show (0 : Int) ≤ 0 ∧ (0 : Int) < 1
    omega
  entries index _ _ := by
    show 0 ≤ offset.toInt ∧ (0 : Int) ≤ 8 ∧ 100 + 16 * 1 + offset.toInt + 8 ≤ 2 ^ 41
    omega

/-- The chunk goes into the list of chunks and, where it is asked for, into bundles. -/
theorem chunkMod_builds (offset : Int64) (rangeStart rangeEnd : UInt32) : ∃ loader r,
    LoadedMods.loadMods noVanilla [([], .loaded (chunkMod offset rangeStart rangeEnd))] {}
      = .ok loader ∧
    (chunkMod offset rangeStart rangeEnd).modResource noVanilla 0x1009
      (chunkResource rangeStart rangeEnd) = some r ∧
    Builds loader.finalized r .chunkList ∧ Builds loader.finalized r (.bundle .chunk) := by
  have hdata : (0 : Int32) = 0 ∧ (0 : Int32) ≠ -1 := by decide
  refine ⟨_, _, rfl, rfl, ?_⟩
  refine Builds.of_chunk ?_ rfl hdata
  refine mem_modResources (List.mem_map.mpr ⟨_, List.mem_singleton.mpr rfl, rfl⟩) ?_
    ((handlerFreeData_iff _).mpr hdata)
  exact List.mem_mergeSort.mpr (List.mem_singleton.mpr rfl)

/-- A chunk near the beginning of its file, of which the middle goes into bundles. -/
theorem builtFiles_iff_near : ∃ loader,
    LoadedMods.loadMods noVanilla [([], .loaded (chunkMod 4 2 6))] {} = .ok loader ∧
      (∃ r, Builds loader.finalized r (.bundle .chunk)) ∧
      ∀ r place, Builds loader.finalized r place → ∃ loaded mod resource,
        Origin [([], .loaded (chunkMod 4 2 6))] loader.mods r loaded mod resource ∧
          (r.builtFile place).file = loaded.fbFile ∧
          (mod.InBlob resource place (r.builtFile place) ↔ mod.Addressable resource place) := by
  obtain ⟨loader, r, hrun, -, -, hbuilds⟩ := chunkMod_builds 4 2 6
  refine ⟨loader, hrun, ⟨r, hbuilds⟩, (builtFiles_iff hrun ?_).1⟩
  intro path mod hmem
  cases List.mem_singleton.mp hmem
  exact ⟨2 ^ 41, chunkMod_tableInFile 2 6 (show (0 : Int) ≤ 4 by omega)
    (show (4 : Int) < 2 ^ 40 by omega)⟩

/-- A chunk behind the first 4 GiB of its file: the file of the layout is one in the beginning. -/
theorem farChunk_outside : ∃ loader r,
    LoadedMods.loadMods noVanilla [([], .loaded (chunkMod (2 ^ 32) 0 0))] {} = .ok loader ∧
      (chunkMod (2 ^ 32) 0 0).TableInFile (2 ^ 41) ∧
      Builds loader.finalized r .chunkList ∧
      r.builtFile .chunkList = { file := 0x1009, offset := 116, size := 8 } ∧
      (chunkMod (2 ^ 32) 0 0).blob (chunkResource 0 0) = { start := 2 ^ 32 + 116, size := 8 } ∧
      ¬ (r.builtFile .chunkList).range.Within
        ((chunkMod (2 ^ 32) 0 0).blob (chunkResource 0 0)) ∧
      ¬ (chunkMod (2 ^ 32) 0 0).InBlob (chunkResource 0 0) .chunkList
        (r.builtFile .chunkList) := by
  obtain ⟨loader, r, hrun, hr, hbuilds, -⟩ := chunkMod_builds (2 ^ 32) 0 0
  cases hr
  have hoffset : (2 ^ 32 : Int64).toInt = 2 ^ 32 := by decide
  have hblob : (chunkMod (2 ^ 32) 0 0).blob (chunkResource 0 0)
      = { start := 2 ^ 32 + 116, size := 8 } := by decide
  have hout : ¬ ByteRange.Within { start := 116, size := 8 }
      ((chunkMod (2 ^ 32) 0 0).blob (chunkResource 0 0)) := by
    intro hin
    have hstart : (2 ^ 32 + 116 : Int) ≤ 116 := by
      rw [hblob] at hin
      exact hin.1
    omega
  refine ⟨loader, _, hrun, chunkMod_tableInFile 0 0 (by omega) (by omega), hbuilds, ?_, hblob,
    hout, fun hin => hout hin.within⟩
  decide

end Kyber.ModLoader
