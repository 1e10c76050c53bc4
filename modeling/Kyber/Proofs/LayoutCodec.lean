import Kyber.Lib.Maps
import Kyber.ModLoader.LayoutManifest
import Kyber.Proofs.BundleCodec

/-!
# The saved layout says what the manifest held

`Save` walks over the bundles twice. The first walk concatenates their files and
notes where each bundle's begin; the second writes the records and looks the
beginnings up again, by the hash as a signed number. `Indexed` is what the first
walk leaves for the second. The conversion of the hash is injective and the
bundles are a map, so no two bundles share a note.

The records then point at consecutive slices: the bundles' in the order of their
hashes, then one file for each chunk. Written out as indices they are just
0, 1, 2, ..., which is that they are disjoint and cover the table.
-/

namespace Kyber.ModLoader

open Kyber.Lib

namespace LayoutManifest

open NativeLayoutManifest

/-! ## Laying out the files -/

/-- Every bundle's beginning is noted, the first one's being `n`. -/
def Indexed (fileIndices : Std.TreeMap Int32 UInt32) : Nat → List (UInt32 × BundleInfo) → Prop
  | _, [] => True
  | n, (hash, info) :: bundles => fileIndices[hash.toInt32]? = some (UInt32.ofNat n) ∧
      Indexed fileIndices (n + info.files.length) bundles

theorem layBundles_files (bundles : List (UInt32 × BundleInfo)) (files : List FileInfo)
    (fileIndices : Std.TreeMap Int32 UInt32) :
    (layBundles bundles files fileIndices).1 = files ++ bundles.flatMap fun b => b.2.files := by
  induction bundles generalizing files fileIndices with
  | nil => simp [layBundles]
  | cons b bundles ih =>
      obtain ⟨hash, info⟩ := b
      rw [layBundles, ih]
      simp

theorem toInt32_inj {a b : UInt32} (h : a.toInt32 = b.toInt32) : a = b := by
  have := congrArg Int32.toUInt32 h
  simpa using this

/-- A walk over other bundles leaves a note alone. -/
theorem layBundles_get {bundles : List (UInt32 × BundleInfo)} {files : List FileInfo}
    {fileIndices : Std.TreeMap Int32 UInt32} {hash : UInt32}
    (h : hash ∉ bundles.map Prod.fst) :
    (layBundles bundles files fileIndices).2[hash.toInt32]? = fileIndices[hash.toInt32]? := by
  induction bundles generalizing files fileIndices with
  | nil => rfl
  | cons b bundles ih =>
      obtain ⟨hash', info⟩ := b
      rw [List.map_cons, List.mem_cons, not_or] at h
      rw [layBundles, ih h.2, getElem?_insert_eq, if_neg]
      intro hc
      exact h.1 (toInt32_inj hc)

theorem layBundles_indexed {bundles : List (UInt32 × BundleInfo)} (files : List FileInfo)
    (fileIndices : Std.TreeMap Int32 UInt32) (h : (bundles.map Prod.fst).Nodup) :
    Indexed (layBundles bundles files fileIndices).2 files.length bundles := by
  induction bundles generalizing files fileIndices with
  | nil => trivial
  | cons b bundles ih =>
      obtain ⟨hash, info⟩ := b
      rw [List.map_cons, List.nodup_cons] at h
      refine ⟨?_, ?_⟩
      · rw [layBundles, layBundles_get h.1]
        simp
      · have := ih (files ++ info.files)
          (fileIndices.insert hash.toInt32 (UInt32.ofNat files.length)) h.2
        rwa [List.length_append] at this

theorem layChunks_files (chunks : List ChunkInfo) (files : List FileInfo) :
    (layChunks chunks files).2 = files ++ chunks.map (·.file) := by
  induction chunks generalizing files with
  | nil => simp [layChunks]
  | cons info chunks ih =>
      rw [layChunks]
      simp [ih]

/-! ## The records -/

/-- A decoded layout says what the manifest held: one record for every bundle,
whose slice of the file table is the bundle's files; one for every chunk, whose
index leads to the chunk's file; and the slices and indices, put one after the
other, are the places of the table in order. -/
structure Describes (l : NativeLayoutManifest) (m : LayoutManifest) : Prop where
  hashes : l.bundleInfo.map (·.hash) = m.bundleInfo.keys
  slices : ∀ r ∈ l.bundleInfo, ∃ info, m.bundleInfo[r.hash]? = some info ∧
    r.slice l.fileInfo = info.files
  guids : l.chunkInfo.map (·.guid) = m.chunkGuids.keys
  files : ∀ r ∈ l.chunkInfo, ∃ info, m.chunkGuids[r.guid]? = some info ∧
    l.fileInfo[r.index]? = some info.file
  cover : l.bundleInfo.flatMap (·.indices) ++ l.chunkInfo.map (·.index)
    = List.range l.fileInfo.length

/-- The records of bundles whose files begin at `n`. -/
def bundleRecords : Nat → List (UInt32 × BundleInfo) → List NativeBundleInfo
  | _, [] => []
  | n, (hash, info) :: bundles =>
      { hash, startIndex := (UInt32.ofNat n).toInt32
        count := (UInt32.ofNat info.files.length).toInt32, unk1 := 0, unk2 := 0 } ::
        bundleRecords (n + info.files.length) bundles

/-- The records of chunks whose files begin at `n`. -/
def chunkRecords : Nat → List ChunkInfo → List NativeChunkInfo
  | _, [] => []
  | n, info :: chunks =>
      { guid := info.guid, fileIndex := (UInt32.ofNat n).toInt32 } :: chunkRecords (n + 1) chunks

/-- The files of the bundles, one after the other. -/
def bundleFiles (m : LayoutManifest) : List FileInfo :=
  m.bundleInfo.toList.flatMap fun b => b.2.files

def chunks (m : LayoutManifest) : List ChunkInfo := m.chunkGuids.toList.map Prod.snd

/-- What the saved layout is to say. -/
def native (m : LayoutManifest) : NativeLayoutManifest where
  fileInfo := m.bundleFiles ++ m.chunks.map (·.file)
  bundleInfo := bundleRecords 0 m.bundleInfo.toList
  chunkInfo := chunkRecords m.bundleFiles.length m.chunks

theorem length_bundleRecords (n : Nat) (bundles : List (UInt32 × BundleInfo)) :
    (bundleRecords n bundles).length = bundles.length := by
  induction bundles generalizing n with
  | nil => rfl
  | cons b bundles ih => rw [bundleRecords, List.length_cons, ih, List.length_cons]

theorem length_chunkRecords (n : Nat) (chunks : List ChunkInfo) :
    (chunkRecords n chunks).length = chunks.length := by
  induction chunks generalizing n with
  | nil => rfl
  | cons info chunks ih => rw [chunkRecords, List.length_cons, ih, List.length_cons]

theorem layChunks_length (chunks : List ChunkInfo) (files : List FileInfo) :
    (layChunks chunks files).1.length = chunks.length := by
  induction chunks generalizing files with
  | nil => rfl
  | cons info chunks ih => rw [layChunks, List.length_cons, ih, List.length_cons]

/-! ## Save writes the records -/

def fileBytes (info : FileInfo) : List UInt8 :=
  leBytes 4 info.file.toUInt32.toNat ++ (leBytes 4 info.offset.toNat ++
    leBytes 8 info.size.toUInt64.toNat)

def int32Bytes (v : Int32) : List UInt8 := leBytes 4 v.toUInt32.toNat

def bundleBytes (r : NativeBundleInfo) : List UInt8 :=
  leBytes 4 r.hash.toNat ++ (int32Bytes r.startIndex ++ (int32Bytes r.count ++
    (int32Bytes r.unk1 ++ int32Bytes r.unk2)))

def chunkBytes (r : NativeChunkInfo) : List UInt8 := r.guid.toList ++ int32Bytes r.fileIndex

/-- The layout of a `NativeLayoutManifest` in the file. -/
def nativeBytes (l : NativeLayoutManifest) : List UInt8 :=
  leBytes 4 (UInt32.ofNat l.fileInfo.length).toNat ++
    (leBytes 4 (UInt32.ofNat l.bundleInfo.length).toNat ++
      (leBytes 4 (UInt32.ofNat l.chunkInfo.length).toNat ++
        (l.fileInfo.flatMap fileBytes ++ (l.bundleInfo.flatMap bundleBytes ++
          l.chunkInfo.flatMap chunkBytes))))

theorem writeFile_writes (info : FileInfo) : Writes (writeFile info) (fileBytes info) :=
  (putInt_writes _).bind ((putInt_writes _).bind (putLong_writes _))

theorem writeBundles_writes {fileIndices : Std.TreeMap Int32 UInt32} {n : Nat}
    {bundles : List (UInt32 × BundleInfo)} (h : Indexed fileIndices n bundles) :
    Writes (bundles.forM fun (hash, info) => writeBundle fileIndices hash info)
      ((bundleRecords n bundles).flatMap bundleBytes) := by
  induction bundles generalizing n with
  | nil => exact Writes.pure
  | cons b bundles ih =>
      obtain ⟨hash, info⟩ := b
      obtain ⟨hget, hrest⟩ := h
      rw [bundleRecords, List.flatMap_cons]
      refine Writes.bind ?_ (ih hrest)
      show Writes (writeBundle fileIndices hash info) _
      unfold writeBundle
      rw [hget]
      exact (putInt_writes _).bind ((putInt_writes _).bind ((putInt_writes _).bind
        ((putInt_writes 0).bind (putInt_writes 0))))

theorem guid_writes (guid : Guid) : Writes (putBytes guid.toFrostyLE 16) guid.toList := by
  have hlen : guid.toFrostyLE.length = 16 := Vector.length_toList
  have h := append_writes (show guid.toFrostyLE.length < 2 ^ 32 by rw [hlen]; decide)
  rw [append, hlen] at h
  exact h

theorem writeChunks_writes (chunks : List ChunkInfo) (files : List FileInfo) :
    Writes ((layChunks chunks files).1.forM writeChunk)
      ((chunkRecords files.length chunks).flatMap chunkBytes) := by
  induction chunks generalizing files with
  | nil => exact Writes.pure
  | cons info chunks ih =>
      have hlen : (files ++ [info.file]).length - 1 = files.length := by simp
      have hi := ih (files ++ [info.file])
      rw [List.length_append] at hi
      rw [layChunks, chunkRecords, List.flatMap_cons, hlen]
      exact ((guid_writes info.guid).bind
        (putInt_writes _)).bind hi

theorem write_writes (m : LayoutManifest) : Writes m.write (nativeBytes m.native) := by
  have hfiles : (layBundles m.bundleInfo.toList [] {}).1 = m.bundleFiles := layBundles_files _ _ _
  have hindexed := layBundles_indexed [] {} (keys_nodup m.bundleInfo)
  unfold write nativeBytes
  simp only []
  rw [hfiles, layChunks_length, layChunks_files, ← Std.TreeMap.length_toList,
    ← length_bundleRecords 0, ← length_chunkRecords m.bundleFiles.length]
  exact (putInt_writes _).bind ((putInt_writes _).bind ((putInt_writes _).bind
    ((forM_writes fun _ _ => writeFile_writes _).bind
      ((writeBundles_writes hindexed).bind (writeChunks_writes _ _)))))

/-! ## The records are read back -/

theorem readUInt32_reads (v : UInt32) : Reads readUInt32 (leBytes 4 v.toNat) v := by
  have hne : leBytes 4 v.toNat ≠ [] := by simp [leBytes]
  have h := (readUnsafe_reads hne).map fun bs => UInt32.ofNat (leNat bs)
  rw [length_leBytes, leNat_leBytes (by have := v.toNat_lt; omega), UInt32.ofNat_toNat] at h
  exact h

theorem readInt32_reads (v : Int32) : Reads readInt32 (int32Bytes v) v := by
  have h := (readUInt32_reads v.toUInt32).map UInt32.toInt32
  rw [Int32.toInt32_toUInt32] at h
  exact h

theorem readInt64_reads (v : Int64) : Reads readInt64 (leBytes 8 v.toUInt64.toNat) v := by
  have hne : leBytes 8 v.toUInt64.toNat ≠ [] := by simp [leBytes]
  have h := (readUnsafe_reads hne).map fun bs => (UInt64.ofNat (leNat bs)).toInt64
  rw [length_leBytes, leNat_leBytes (by have := v.toUInt64.toNat_lt; omega), UInt64.ofNat_toNat,
    Int64.toInt64_toUInt64] at h
  exact h

theorem readFileInfo_reads (info : FileInfo) : Reads readFileInfo (fileBytes info) info :=
  (readInt32_reads _).bind ((readUInt32_reads _).bind ((readInt64_reads _).map _))

theorem readBundleInfo_reads (r : NativeBundleInfo) :
    Reads readBundleInfo (bundleBytes r) r :=
  (readUInt32_reads _).bind ((readInt32_reads _).bind ((readInt32_reads _).bind
    ((readInt32_reads _).bind ((readInt32_reads _).map _))))

theorem readChunkInfo_reads (r : NativeChunkInfo) : Reads readChunkInfo (chunkBytes r) r :=
  (getBytes16_reads _).bind ((readInt32_reads _).map _)

theorem repeatM_reads_ofNat {α : Type} {r : BufM α} {g : α → List UInt8} {xs : List α}
    (hlen : xs.length < 2 ^ 32) (h : ∀ x, Reads r (g x) x) :
    Reads (repeatM r (UInt32.ofNat xs.length).toNat) (xs.flatMap g) xs := by
  intro F
  rw [UInt32.toNat_ofNat_of_lt' hlen]
  exact repeatM_reads xs fun x _ => h x F

theorem decode_reads {l : NativeLayoutManifest} (hf : l.fileInfo.length < 2 ^ 32)
    (hb : l.bundleInfo.length < 2 ^ 32) (hc : l.chunkInfo.length < 2 ^ 32) :
    Reads decode (nativeBytes l) l :=
  (readUInt32_reads _).bind ((readUInt32_reads _).bind ((readUInt32_reads _).bind
    ((repeatM_reads_ofNat hf readFileInfo_reads).bind
      ((repeatM_reads_ofNat hb readBundleInfo_reads).bind
        ((repeatM_reads_ofNat hc readChunkInfo_reads).map _)))))

/-! ## What the records point at -/

theorem bundleRecords_hash (n : Nat) (bundles : List (UInt32 × BundleInfo)) :
    (bundleRecords n bundles).map (·.hash) = bundles.map Prod.fst := by
  induction bundles generalizing n with
  | nil => rfl
  | cons b bundles ih => rw [bundleRecords, List.map_cons, ih, List.map_cons]

theorem toNat_ofNat_toInt32 {n : Nat} (h : n < 2 ^ 32) :
    (UInt32.ofNat n).toInt32.toUInt32.toNat = n := by
  rw [UInt32.toUInt32_toInt32, UInt32.toNat_ofNat_of_lt' h]

/-- Each record's slice of the table `pre ++ bundles' files ++ post` is its
bundle's files. -/
theorem bundleRecords_slice {bundles : List (UInt32 × BundleInfo)} (pre post : List FileInfo)
    (hlen : (pre ++ bundles.flatMap fun b => b.2.files).length < 2 ^ 32) :
    ∀ r ∈ bundleRecords pre.length bundles, ∃ info, (r.hash, info) ∈ bundles ∧
      r.slice (pre ++ (bundles.flatMap (fun b => b.2.files) ++ post)) = info.files := by
  induction bundles generalizing pre with
  | nil => simp [bundleRecords]
  | cons b bundles ih =>
      obtain ⟨hash, info⟩ := b
      rw [List.flatMap_cons, ← List.append_assoc] at hlen
      have hl : pre.length + info.files.length + (bundles.flatMap fun b => b.2.files).length
          < 2 ^ 32 := by
        rwa [List.length_append, List.length_append] at hlen
      intro r hr
      rw [bundleRecords, List.mem_cons] at hr
      rcases hr with rfl | hr
      · refine ⟨info, List.mem_cons_self, ?_⟩
        rw [NativeBundleInfo.slice, toNat_ofNat_toInt32 (by omega),
          toNat_ofNat_toInt32 (by omega), List.drop_left, List.flatMap_cons, List.append_assoc,
          List.take_left]
      · have := ih (pre ++ info.files) hlen r (by rwa [List.length_append])
        obtain ⟨info', hmem, hslice⟩ := this
        refine ⟨info', List.mem_cons_of_mem _ hmem, ?_⟩
        rwa [List.flatMap_cons, List.append_assoc, ← List.append_assoc pre]

theorem bundleRecords_indices {n : Nat} {bundles : List (UInt32 × BundleInfo)}
    (hlen : n + (bundles.flatMap fun b => b.2.files).length < 2 ^ 32) :
    (bundleRecords n bundles).flatMap (·.indices)
      = List.range' n (bundles.flatMap fun b => b.2.files).length := by
  induction bundles generalizing n with
  | nil => rfl
  | cons b bundles ih =>
      obtain ⟨hash, info⟩ := b
      rw [List.flatMap_cons, List.length_append] at hlen
      dsimp only at hlen
      rw [bundleRecords, List.flatMap_cons, ih (by omega), NativeBundleInfo.indices,
        toNat_ofNat_toInt32 (by omega), toNat_ofNat_toInt32 (by omega), List.flatMap_cons,
        List.length_append, List.range'_append_1]

theorem chunkRecords_guid (n : Nat) (chunks : List ChunkInfo) :
    (chunkRecords n chunks).map (·.guid) = chunks.map (·.guid) := by
  induction chunks generalizing n with
  | nil => rfl
  | cons info chunks ih => rw [chunkRecords, List.map_cons, ih, List.map_cons]

/-- Each chunk's record points at its file in the table `pre ++ chunks' files`. -/
theorem chunkRecords_file {chunks : List ChunkInfo} (pre : List FileInfo)
    (hlen : pre.length + chunks.length < 2 ^ 32) :
    ∀ r ∈ chunkRecords pre.length chunks, ∃ info ∈ chunks, info.guid = r.guid ∧
      (pre ++ chunks.map (·.file))[r.index]? = some info.file := by
  induction chunks generalizing pre with
  | nil => simp [chunkRecords]
  | cons info chunks ih =>
      rw [List.length_cons] at hlen
      intro r hr
      rw [chunkRecords, List.mem_cons] at hr
      rcases hr with rfl | hr
      · refine ⟨info, List.mem_cons_self, rfl, ?_⟩
        rw [NativeChunkInfo.index, toNat_ofNat_toInt32 (by omega)]
        simp
      · have := ih (pre ++ [info.file]) (by rw [List.length_append, List.length_singleton]; omega)
          r (by rwa [List.length_append])
        obtain ⟨info', hmem, hguid, hfile⟩ := this
        refine ⟨info', List.mem_cons_of_mem _ hmem, hguid, ?_⟩
        rwa [List.append_assoc] at hfile

theorem chunkRecords_indices {n : Nat} {chunks : List ChunkInfo}
    (hlen : n + chunks.length < 2 ^ 32) :
    (chunkRecords n chunks).map (·.index) = List.range' n chunks.length := by
  induction chunks generalizing n with
  | nil => rfl
  | cons info chunks ih =>
      rw [List.length_cons] at hlen
      rw [chunkRecords, List.map_cons, ih (by omega), List.length_cons, List.range'_succ,
        NativeChunkInfo.index, toNat_ofNat_toInt32 (by omega)]

/-! ## Manifests that the loader builds -/

/-- A manifest that the operations of the class lead to. What `AddFileToBundle`
finds in the aggregation does not matter. -/
inductive Built : LayoutManifest → Prop
  | load {data : Memory} {entries entries' : BundleEntries} {m : LayoutManifest} :
      load data entries = .ok (m, entries') → Built m
  | addBundle {m m' : LayoutManifest} {hash : UInt32} : Built m →
      m.addBundle hash = .ok m' → Built m'
  | addFileToBundle {m m' : LayoutManifest} {entries entries' : BundleEntries}
      {addedBundles : Std.TreeSet UInt32} {hash : UInt32} {file : FileInfo} {type : AssetType} :
      Built m → m.addFileToBundle entries addedBundles hash file type = .ok (m', entries') →
      Built m'
  | setFileInfo {m m' : LayoutManifest} {hash : UInt32} {index : Nat} {file : FileInfo} :
      Built m → m.setFileInfo hash index file = .ok m' → Built m'
  | addChunk {m : LayoutManifest} {guid : Guid} {file : FileInfo} : Built m →
      Built (m.addChunk guid file)

/-- Every chunk is filed under its own guid. -/
def ChunksKeyed (m : LayoutManifest) : Prop :=
  ∀ (guid : Guid) (info : ChunkInfo), m.chunkGuids[guid]? = some info → info.guid = guid

theorem ChunksKeyed.insert {m : LayoutManifest} (h : m.ChunksKeyed) (info : ChunkInfo) :
    ChunksKeyed { m with chunkGuids := m.chunkGuids.insert info.guid info } := by
  intro guid info' hget
  rw [getElem?_insert_eq] at hget
  split at hget
  next hc =>
    cases hget
    exact hc.symm
  next => exact h guid info' hget

theorem ChunksKeyed.congr {m m' : LayoutManifest} (h : m.ChunksKeyed)
    (hc : m'.chunkGuids = m.chunkGuids) : m'.ChunksKeyed := by
  unfold ChunksKeyed
  rw [hc]
  exact h

theorem loadBundles_chunkGuids (data : Memory) (n i : Nat) (m : LayoutManifest)
    (entries : BundleEntries) : (loadBundles data n i m entries).1.chunkGuids = m.chunkGuids := by
  induction n generalizing i m entries with
  | zero => rfl
  | succ n ih => rw [loadBundles, ih]

theorem ChunksKeyed.loadChunks {data : Memory} {n i : Nat} {m m' : LayoutManifest}
    (hm : m.ChunksKeyed) (h : loadChunks data n i m = .ok m') : m'.ChunksKeyed := by
  induction n generalizing i m with
  | zero =>
      cases h
      exact hm
  | succ n ih =>
      rw [LayoutManifest.loadChunks] at h
      split at h
      next => cases h
      next file _ => exact ih (hm.insert { guid := _, fileIndex := _, file }) h

/-- What a successful `Load` is made of. -/
theorem load_ok {data : Memory} {entries entries' : BundleEntries} {m : LayoutManifest}
    (h : load data entries = .ok (m, entries')) :
    ∃ fileInfo, entries' = (loadBundles data (data.u32 4).toNat 0 { fileInfo } entries).2 ∧
      loadChunks data (data.u32 8).toNat 0
        (loadBundles data (data.u32 4).toNat 0 { fileInfo } entries).1 = .ok m := by
  simp only [load, bind, Except.bind] at h
  split at h
  next => cases h
  next =>
    split at h
    next => cases h
    next =>
      split at h
      next => cases h
      next =>
        split at h
        next => cases h
        next hc =>
          cases h
          exact ⟨_, rfl, hc⟩

theorem ChunksKeyed.load {data : Memory} {entries entries' : BundleEntries} {m : LayoutManifest}
    (h : load data entries = .ok (m, entries')) : m.ChunksKeyed := by
  obtain ⟨fileInfo, -, h⟩ := load_ok h
  refine ChunksKeyed.loadChunks ?_ h
  intro guid info hget
  rw [loadBundles_chunkGuids] at hget
  simp at hget

/-- Only `AddChunk` touches the chunks after `Load`. -/
theorem Built.chunksKeyed {m : LayoutManifest} (h : Built m) : m.ChunksKeyed := by
  induction h with
  | load h => exact .load h
  | addBundle _ h ih =>
      refine ih.congr ?_
      unfold LayoutManifest.addBundle at h
      split at h
      next => cases h; rfl
      next =>
        split at h
        next => cases h; rfl
        next => cases h
  | addFileToBundle _ h ih =>
      refine ih.congr ?_
      unfold LayoutManifest.addFileToBundle at h
      split at h
      next => cases h; rfl
      next =>
        dsimp only at h
        repeat' split at h
        all_goals first | rfl | cases h; rfl | cases h
  | setFileInfo _ h ih =>
      refine ih.congr ?_
      unfold LayoutManifest.setFileInfo at h
      split at h
      next => cases h; rfl
      next =>
        split at h
        next => cases h; rfl
        next => cases h
  | @addChunk m guid file _ ih => exact ih.insert { guid, fileIndex := 0, file }

/-- The length of the saved layout. -/
def savedSize (m : LayoutManifest) : Nat :=
  12 + 16 * (m.bundleFiles.length + m.chunkGuids.size) + 20 * m.bundleInfo.size +
    20 * m.chunkGuids.size

theorem length_chunks (m : LayoutManifest) : m.chunks.length = m.chunkGuids.size := by
  rw [chunks, List.length_map, Std.TreeMap.length_toList]

theorem length_fileBytes (info : FileInfo) : (fileBytes info).length = 16 := rfl

theorem length_nativeBytes (m : LayoutManifest) : (nativeBytes m.native).length = m.savedSize := by
  have hb : ∀ r, (bundleBytes r).length = 20 := fun r => rfl
  have hc : ∀ r, (chunkBytes r).length = 20 := fun r => by
    rw [chunkBytes, List.length_append, Vector.length_toList]
    rfl
  rw [nativeBytes, List.length_append, List.length_append, List.length_append, List.length_append,
    List.length_append, length_flatMap_const length_fileBytes, length_flatMap_const hb, length_flatMap_const hc]
  simp only [length_leBytes, native, List.length_append, List.length_map, length_bundleRecords,
    length_chunkRecords, Std.TreeMap.length_toList, length_chunks, savedSize]
  omega

theorem save_eq {m : LayoutManifest} (hsize : m.savedSize < 2 ^ 32) :
    m.save = .ok (nativeBytes m.native) := by
  obtain ⟨s, hs, hb⟩ := (write_writes m).emits.run_empty (by rwa [length_nativeBytes])
  rw [save, hs, ← hb]
  rfl

theorem save_overflow {m : LayoutManifest} (hsize : 2 ^ 32 ≤ m.savedSize) :
    m.save = .error .outOfBounds := by
  have h := (write_writes m).overflows {} [] ByteBuffer.holds_nil rfl (by decide) (by
    rwa [List.length_nil, Nat.zero_add, length_nativeBytes])
  show (m.write {} >>= _) = _
  rw [h]
  rfl

theorem decode_eq {m : LayoutManifest} (hsize : m.savedSize < 2 ^ 32) :
    decode.run (.ofBytes (nativeBytes m.native))
      = .ok (m.native, (ByteBuffer.ofBytes (nativeBytes m.native)).skip m.savedSize) := by
  have hl := length_chunks m
  rw [savedSize] at hsize
  have hr : Reads decode (nativeBytes m.native) m.native := by
    refine decode_reads ?_ ?_ ?_
    · rw [native, List.length_append, List.length_map]
      omega
    · rw [native, length_bundleRecords, Std.TreeMap.length_toList]
      omega
    · rw [native, length_chunkRecords]
      omega
  rw [← length_nativeBytes]
  exact hr _ _ [] rfl (by simp)

/-- The chunks' guids are the keys of their map. -/
theorem ChunksKeyed.guids {m : LayoutManifest} (hm : m.ChunksKeyed) :
    m.chunks.map (·.guid) = m.chunkGuids.keys := by
  rw [chunks, ← Std.TreeMap.map_fst_toList_eq_keys, List.map_map]
  refine List.map_congr_left fun p hp => ?_
  exact hm p.1 p.2 (Std.TreeMap.mem_toList_iff_getElem?_eq_some.mp hp)

theorem native_describes {m : LayoutManifest} (hm : m.ChunksKeyed)
    (hlen : m.bundleFiles.length + m.chunks.length < 2 ^ 32) : Describes m.native m where
  hashes := by rw [native, bundleRecords_hash, Std.TreeMap.map_fst_toList_eq_keys]
  slices := by
    intro r hr
    obtain ⟨info, hmem, hslice⟩ := bundleRecords_slice [] (m.chunks.map (·.file)) (by
      rw [List.nil_append]
      exact Nat.lt_of_le_of_lt (Nat.le_add_right _ _) hlen) r hr
    exact ⟨info, Std.TreeMap.mem_toList_iff_getElem?_eq_some.mp hmem, hslice⟩
  guids := by rw [native, chunkRecords_guid, hm.guids]
  files := by
    intro r hr
    obtain ⟨info, hmem, hguid, hfile⟩ := chunkRecords_file m.bundleFiles hlen r hr
    obtain ⟨⟨guid, info'⟩, hp, rfl⟩ := List.mem_map.mp hmem
    have hget := Std.TreeMap.mem_toList_iff_getElem?_eq_some.mp hp
    refine ⟨info', ?_, hfile⟩
    rw [← hguid, hm guid info' hget]
    exact hget
  cover := by
    have hb : 0 + m.bundleFiles.length < 2 ^ 32 := by omega
    rw [native, chunkRecords_indices hlen, bundleRecords_indices hb, List.length_append,
      List.length_map, List.range_eq_range', ← List.range'_append_1, Nat.zero_add]
    rfl

/-! ## A layout that is too large -/

/-- A layout of one bundle, of hash 0, and nothing else. -/
def oneBundle : Memory := fun i => if i = 4 then 1 else 0

theorem load_oneBundle (entries : BundleEntries) :
    load oneBundle entries = .ok
      ({ bundleInfo := Std.TreeMap.empty.insert 0 { hash := 0, files := (entries.at 0).files } },
        entries.touch 0) := rfl

/-- Its bundle with `n` files. -/
def crowded (n : Nat) (file : FileInfo) : LayoutManifest :=
  { bundleInfo := Std.TreeMap.empty.insert 0 { hash := 0, files := List.replicate n file } }

theorem crowded_built (n : Nat) (file : FileInfo) : Built (crowded n file) := by
  have h := load_oneBundle (Std.TreeMap.empty.insert 0 { files := List.replicate n file })
  exact .load h

theorem le_savedSize_crowded (n : Nat) (file : FileInfo) : 16 * n ≤ (crowded n file).savedSize := by
  have hfiles : (crowded n file).bundleFiles.length = n := by
    have : (crowded n file).bundleFiles = List.replicate n file ++ [] := rfl
    rw [this, List.append_nil, List.length_replicate]
  rw [savedSize, hfiles]
  omega

end LayoutManifest

/-- A layout that fits the writer's 32-bit positions is saved, and the bytes
decode, to the last one, to a description of the manifest. -/
theorem layoutManifest_decode_save {m : LayoutManifest} (hm : m.Built)
    (hsize : m.savedSize < 2 ^ 32) :
    ∃ bytes native, m.save = .ok bytes ∧
      NativeLayoutManifest.decode.run (.ofBytes bytes)
        = .ok (native, (ByteBuffer.ofBytes bytes).skip bytes.length) ∧
      LayoutManifest.Describes native m := by
  refine ⟨_, m.native, LayoutManifest.save_eq hsize, ?_, ?_⟩
  · rw [LayoutManifest.decode_eq hsize, LayoutManifest.length_nativeBytes]
  · refine LayoutManifest.native_describes hm.chunksKeyed ?_
    rw [LayoutManifest.savedSize, ← LayoutManifest.length_chunks] at hsize
    omega

/-- A bundle of two files and a chunk. -/
theorem layoutManifest_decode_save_crowded :
    let m := (LayoutManifest.crowded 2 ⟨4097, 16, 640⟩).addChunk (Vector.replicate 16 7)
      ⟨8193, 0, 80⟩
    m.Built ∧ m.savedSize < 2 ^ 32 ∧ ∃ bytes native, m.save = .ok bytes ∧
      NativeLayoutManifest.decode.run (.ofBytes bytes)
        = .ok (native, (ByteBuffer.ofBytes bytes).skip bytes.length) ∧
      LayoutManifest.Describes native m := by
  intro m
  have hm : m.Built := .addChunk (LayoutManifest.crowded_built _ _)
  have hsize : m.savedSize < 2 ^ 32 := by decide
  exact ⟨hm, hsize, layoutManifest_decode_save hm hsize⟩

/-- The bound is real: `Load` makes a manifest of 2^28 files out of a vanilla
bundle that has as many, and the table alone takes the writer around 2^32. -/
theorem layoutManifest_too_large :
    (LayoutManifest.crowded (2 ^ 28) ⟨0, 0, 0⟩).Built ∧
      (LayoutManifest.crowded (2 ^ 28) ⟨0, 0, 0⟩).save = .error .outOfBounds :=
  ⟨LayoutManifest.crowded_built _ _,
    LayoutManifest.save_overflow
      (Nat.le_trans (by decide) (LayoutManifest.le_savedSize_crowded (2 ^ 28) _))⟩

end Kyber.ModLoader
