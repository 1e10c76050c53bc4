import Kyber.ModLoader.DbObject

/-!
# Bundle manifests (`BundleMerger.h`, `BundleMerger.cpp`)

A bundle's manifest lists its assets in the order their files have in the
layout: ebx, then res, then chunks. On disk it is a header of counts and
offsets, a SHA-1 for every entry, the entries, the chunk meta and a string table
that the entries point into.

`Save` writes the file front to back. It does not write the SHA-1s, it moves the
write cursor over them; and it writes the three offsets of the header twice, as
zeros when they are not known yet and for good at the end. Names are stored
once: the string table is looked up by `HashQuick` of the name.
-/

namespace Kyber.ModLoader

open Kyber.Lib

structure EbxEntry where
  name : ByteString
  originalSize : UInt32
  deriving DecidableEq, Repr

structure ResEntry extends EbxEntry where
  resType : UInt32
  resMeta : Vector UInt8 16
  resRid : UInt64
  deriving DecidableEq, Repr

structure ChunkEntry where
  guid : Guid
  logicalOffset : UInt32
  logicalSize : UInt32
  deriving DecidableEq, Repr

/-- `BundleManifest`, with `m_meta` as `chunkMeta`. The counts and offsets of
the file header are members of the class in the source, but only `Load` reads
them and it sets them first. -/
structure BundleManifest where
  ebxEntries : List EbxEntry := []
  resEntries : List ResEntry := []
  chunkEntries : List ChunkEntry := []
  chunkMeta : Option DbObject := none

/-! ## Save -/

/-- The string table under construction: `nameOffset`, `stringOffsets` and
`strings`. -/
structure StringTable where
  nameOffset : UInt32 := 0
  stringOffsets : Std.TreeMap UInt32 UInt32 := {}
  strings : List ByteString := []

/-- The offset of a name, entering it first if its hash is new. -/
def StringTable.intern (t : StringTable) (name : ByteString) : UInt32 × StringTable :=
  let hash := hashQuick name
  match t.stringOffsets[hash]? with
  | some offset => (offset, t)
  | none =>
      (t.nameOffset,
        { nameOffset := t.nameOffset + UInt32.ofNat (name.length + 1)
          stringOffsets := t.stringOffsets.insert hash t.nameOffset
          strings := t.strings ++ [cStr name] })

/-- The loop over the ebx entries, and the first one over the res entries. -/
def writeNames : List EbxEntry → StringTable → BufM StringTable
  | [], t => return t
  | entry :: entries, t => do
      let (offset, t) := t.intern entry.name
      putInt (swapEndiannessU32 offset)
      putInt (swapEndiannessU32 entry.originalSize)
      writeNames entries t

/-- Moving the write cursor over one unwritten SHA-1. -/
def skipSha1 : BufM Unit := do
  setWritePos ((← getWritePos) + 20)

namespace BundleManifest

/-- `chunkMeta`, the name that the meta tree is saved under. -/
def chunkMetaName : ByteString := [0x63, 0x68, 0x75, 0x6e, 0x6b, 0x4d, 0x65, 0x74, 0x61]

def totalCount (m : BundleManifest) : UInt32 :=
  UInt32.ofNat (m.ebxEntries.length + m.resEntries.length + m.chunkEntries.length)

/-- The magic number and the counts. -/
def writeCounts (m : BundleManifest) : BufM Unit := do
  putInt (swapEndiannessU32 0x9D798ED5)
  putInt (swapEndiannessU32 m.totalCount)
  putInt (swapEndiannessU32 (UInt32.ofNat m.ebxEntries.length))
  putInt (swapEndiannessU32 (UInt32.ofNat m.resEntries.length))
  putInt (swapEndiannessU32 (UInt32.ofNat m.chunkEntries.length))

/-- The offsets block of the header. -/
def writeOffsets (stringsOffset metaOffset metaSize : UInt32) : BufM Unit := do
  putInt (swapEndiannessU32 stringsOffset)
  putInt (swapEndiannessU32 metaOffset)
  putInt (swapEndiannessU32 metaSize)

/-- The columns of the res entries and the chunk entries. -/
def writeColumns (m : BundleManifest) : BufM Unit := do
  m.resEntries.forM fun entry => putInt (swapEndiannessU32 entry.resType)
  m.resEntries.forM fun entry => putBytes entry.resMeta.toList 0x10
  m.resEntries.forM fun entry => putLong (swapEndiannessU64 entry.resRid)
  m.chunkEntries.forM fun entry => do
    putBytes entry.guid.toFrostyBE 16
    putInt (swapEndiannessU32 entry.logicalOffset)
    putInt (swapEndiannessU32 entry.logicalSize)

/-- The meta blob, answering `metaOffset` and `metaSize`. -/
def writeMeta (m : BundleManifest) : BufM (UInt32 × UInt32) := do
  match m.chunkMeta with
  | none => return (0, 0)
  | some obj =>
      let data ← obj.save chunkMetaName
      let metaOffset ← getWritePos
      putBytes data data.length
      return (UInt32.ofNat metaOffset, UInt32.ofNat data.length)

/-- Everything behind the SHA-1s, answering the three offsets. -/
def writeBody (m : BundleManifest) : BufM (UInt32 × UInt32 × UInt32) := do
  let t ← writeNames m.ebxEntries {}
  let t ← writeNames (m.resEntries.map ResEntry.toEbxEntry) t
  m.writeColumns
  let (metaOffset, metaSize) ← m.writeMeta
  let stringsOffset ← getWritePos
  t.strings.forM putNullTerminatedString
  padRounds 16 16
  return (UInt32.ofNat stringsOffset, metaOffset, metaSize)

def write (m : BundleManifest) : BufM Unit := do
  m.writeCounts
  let offsetsPos ← getWritePos
  writeOffsets 0 0 0
  (List.range m.totalCount.toNat).forM fun _ => skipSha1
  let (stringsOffset, metaOffset, metaSize) ← m.writeBody
  setWritePos offsetsPos
  writeOffsets stringsOffset metaOffset metaSize

/-- `Save()`. -/
def save (m : BundleManifest) : Except Fault (List UInt8) := do
  let ((), buf) ← m.write.run {}
  return buf.buf

end BundleManifest

/-! ## Load -/

/-- A big-endian 32-bit field. -/
def readU32 : BufM UInt32 :=
  return swapEndiannessU32 (UInt32.ofNat (leNat (← readUnsafe 4)))

/-- A big-endian 64-bit field. -/
def readU64 : BufM UInt64 :=
  return swapEndiannessU64 (UInt64.ofNat (leNat (← readUnsafe 8)))

/-- One round of the loops that read names: the name stands in the string
table, and the cursor comes back for the next entry. -/
def readName (stringsOffset : UInt32) : BufM EbxEntry := do
  let nameOffset ← readU32
  let originalSize ← readU32
  let currentPos ← getReadPos
  setReadPos (stringsOffset + nameOffset).toNat
  let name ← getNullTerminatedString
  setReadPos currentPos
  return { name, originalSize }

def readChunk : BufM ChunkEntry := do
  let guid ← getBytes16
  let logicalOffset ← readU32
  let logicalSize ← readU32
  return { guid := Guid.fromFrostyBE guid, logicalOffset, logicalSize }

/-- The res entries, whose attributes are stored by column. -/
def zipRes : List EbxEntry → List UInt32 → List (Vector UInt8 16) → List UInt64 → List ResEntry
  | e :: es, t :: ts, m :: ms, r :: rs =>
      { toEbxEntry := e, resType := t, resMeta := m, resRid := r } :: zipRes es ts ms rs
  | _, _, _, _ => []

/-- The meta blob goes through a buffer of its own. -/
def readMeta (metaOffset metaSize : UInt32) : BufM (Option DbObject) := do
  if 0 < metaSize then
    setReadPos metaOffset.toNat
    let metaData ← getBytes metaSize.toNat
    let ((obj, _), _) ← (DbObject.load []).run (.ofBytes metaData)
    return obj
  else
    return none

def BundleManifest.read : BufM BundleManifest := do
  let magic := (← readU32) ^^^ 0x7065636D
  if magic ≠ 0xED1CEDB8 then
    return {}
  let totalCount ← readU32
  let ebxCount ← readU32
  let resCount ← readU32
  let chunkCount ← readU32
  let stringsOffset ← readU32
  let metaOffset ← readU32
  let metaSize ← readU32
  let _ ← repeatM (do setReadPos ((← getReadPos) + 20)) totalCount.toNat
  let ebxEntries ← repeatM (readName stringsOffset) ebxCount.toNat
  let resNames ← repeatM (readName stringsOffset) resCount.toNat
  let resTypes ← repeatM readU32 resCount.toNat
  let resMetas ← repeatM getBytes16 resCount.toNat
  let resRids ← repeatM readU64 resCount.toNat
  let chunkEntries ← repeatM readChunk chunkCount.toNat
  let chunkMeta ← readMeta metaOffset metaSize
  return { ebxEntries, resEntries := zipRes resNames resTypes resMetas resRids,
           chunkEntries, chunkMeta }

/-- `Load(data, size)` into a fresh manifest. -/
def BundleManifest.load (data : List UInt8) : Except Fault BundleManifest := do
  let (manifest, _) ← BundleManifest.read.run (.ofBytes data)
  return manifest

/-! ## Changes -/

/-- A loop that changes the first element it is looking for and stops there. -/
def modifyFirst {α : Type} (p : α → Bool) (f : α → α) : List α → List α
  | [] => []
  | a :: l => if p a then f a :: l else a :: modifyFirst p f l

namespace BundleManifest

/-- `Result`. -/
inductive Result
  | nop
  | modified
  | added
  deriving DecidableEq, Repr

def clear (_ : BundleManifest) : BundleManifest := { chunkMeta := some (.list []) }

def modifyEbxEntry (m : BundleManifest) (name : ByteString) (originalSize : UInt32) :
    BundleManifest :=
  { m with ebxEntries := modifyFirst (·.name == name) ({ · with originalSize }) m.ebxEntries }

def modifyResEntry (m : BundleManifest) (entry : ResEntry) : BundleManifest :=
  { m with resEntries := modifyFirst (·.name == entry.name) (fun _ => entry) m.resEntries }

def addEbxEntry (m : BundleManifest) (name : ByteString) (originalSize : UInt32)
    (allowModify : Bool := true) : Result × BundleManifest :=
  if allowModify && m.ebxEntries.any (·.name == name) then
    (.modified, m.modifyEbxEntry name originalSize)
  else
    (.added, { m with ebxEntries := m.ebxEntries ++ [{ name, originalSize }] })

/-- `AddResEntry`, which goes by the rid and not by the name. -/
def addResEntry (m : BundleManifest) (entry : ResEntry) (allowModify : Bool := true) :
    Result × BundleManifest :=
  if allowModify && m.resEntries.any (·.resRid == entry.resRid) then
    (.modified, { m with
      resEntries := modifyFirst (·.resRid == entry.resRid) (fun _ => entry) m.resEntries })
  else
    (.added, { m with resEntries := m.resEntries ++ [entry] })

/-- `h32`. -/
def h32Key : ByteString := [0x68, 0x33, 0x32]

/-- `meta`. -/
def metaKey : ByteString := [0x6d, 0x65, 0x74, 0x61]

/-- `firstMip`. -/
def firstMipKey : ByteString := [0x66, 0x69, 0x72, 0x73, 0x74, 0x4d, 0x69, 0x70]

/-- `*m_meta->Get<DbList>()`. -/
def metaList : DbObject → Except Fault (List DbObject)
  | .list items => .ok items
  | _ => .error .outOfBounds

/-- `GetMetaIndex`, on the items of the list from the `i`-th on. -/
def getMetaIndex (h32 : Int32) : List DbObject → Nat → Except Fault (Option Nat)
  | [], _ => .ok none
  | .map entries :: items, i =>
      match entries.lookup h32Key with
      | some (.int value) =>
          if value ≠ h32.toUInt32 then getMetaIndex h32 items (i + 1) else .ok (some i)
      | _ => .error .outOfBounds
  | _ :: _, _ => .error .outOfBounds

/-- `mapObj`: what the meta says about a chunk. -/
def chunkMetaItem (h32 firstMip : Int32) : DbObject :=
  .map [(h32Key, .int h32.toUInt32),
    (metaKey, .map (if firstMip ≠ -1 then [(firstMipKey, .int firstMip.toUInt32)] else []))]

/-- The end of `AddChunkEntry`: the meta of a new chunk is added, that of a chunk
that was there is replaced. -/
def setChunkMeta (m : BundleManifest) (isNew : Bool) (h32 firstMip : Int32) :
    Except Fault BundleManifest := do
  if h32 = 0 then
    return m
  let list ← metaList (m.chunkMeta.getD (.list []))
  if isNew then
    return { m with chunkMeta := some (.list (list ++ [chunkMetaItem h32 firstMip])) }
  match ← getMetaIndex h32 list 0 with
  | some i => return { m with chunkMeta := some (.list (list.set i (chunkMetaItem h32 firstMip))) }
  | none => return { m with chunkMeta := some (.list list) }

def addChunkEntry (m : BundleManifest) (entry : ChunkEntry) (h32 firstMip : Int32)
    (allowNew : Bool := true) (allowModify : Bool := true) :
    Except Fault (Result × BundleManifest) := do
  if allowModify && m.chunkEntries.any (·.guid == entry.guid) then
    let m := { m with
      chunkEntries := modifyFirst (·.guid == entry.guid) (fun _ => entry) m.chunkEntries }
    return (.modified, ← m.setChunkMeta false h32 firstMip)
  else if !allowNew then
    return (.nop, m)
  else
    let m := { m with chunkEntries := m.chunkEntries ++ [entry] }
    return (.added, ← m.setChunkMeta true h32 firstMip)

end BundleManifest

end Kyber.ModLoader
