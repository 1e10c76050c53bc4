import Kyber.ModLoader.ModResource

/-!
# Shader block depots (`ResourceMerger.cpp`)

A depot is a file of shader blocks of five types. It starts with a directory, one
entry a block with the position of its record and its type; a record has the block's
hash and the position of its data. Static blocks refer to other blocks of the depot,
by their indices. The game turns the positions in a depot into pointers, which a
relocation table lists.

When the game loads a depot, the hook reads it, puts blocks of mods in the place of
those that have the same hash, and writes the depot and its relocation table anew.

In memory a reference is a pointer. The blocks of the depot are in one list and those
of the mods in another, and a pointer says where its block is. A block that has been
deleted is gone from its list, and following a pointer to it is a fault. Where the
source follows pointers while it reads or writes a record, the model reads or writes
indices, and follows the pointers before or after.
-/

namespace Kyber.ModLoader

open Kyber.Lib

/-- The classes of blocks, with the type that stands for them in a directory. -/
inductive BlockType
  /-- `ShaderBlockEntry`, 0 -/
  | entry
  /-- `ShaderPersistentParamDbBlock`, 1 -/
  | persistentParamDb
  /-- `ShaderStaticParamDbBlock`, 2 -/
  | staticParamDb
  /-- `MeshParamDbBlock`, 3 -/
  | meshParamDb
  /-- `ShaderBlockMeshVariationEntry`, 4 -/
  | meshVariation
  deriving DecidableEq, Repr

def BlockType.value : BlockType → UInt64
  | .entry => 0
  | .persistentParamDb => 1
  | .staticParamDb => 2
  | .meshParamDb => 3
  | .meshVariation => 4

/-- The `switch` over the type of a directory entry. -/
def BlockType.ofValue (type : UInt64) : Option BlockType :=
  if type = 0 then some .entry
  else if type = 1 then some .persistentParamDb
  else if type = 2 then some .staticParamDb
  else if type = 3 then some .meshParamDb
  else if type = 4 then some .meshVariation
  else none

structure ParameterEntry where
  nameHash : UInt32
  typeHash : UInt32
  used : UInt16
  value : List UInt8
  parameterHash : UInt64
  deriving DecidableEq, Repr

/-- The fields of a block. `ρ` is what refers to a block. -/
inductive ShaderBlock (ρ : Type)
  | entry (resources : List ρ)
  | persistentParamDb (parameters : List ParameterEntry)
  | staticParamDb (resources : List ρ)
  | meshParamDb (guid : Guid) (lodIndex : UInt32) (parameters : List ParameterEntry)
  /-- `m_rvmShaderRefGuids` and `m_rvmShaderRefInts`, which grow together -/
  | meshVariation (rvmShaderRefs : List (Guid × UInt32))
  deriving DecidableEq, Repr

structure ShaderBlockResource (ρ : Type) where
  index : UInt32 := 0
  hash : UInt64
  block : ShaderBlock ρ
  deriving DecidableEq, Repr

namespace ShaderBlock

variable {ρ τ : Type}

/-- What the chain of `dynamic_cast`s finds. -/
def type : ShaderBlock ρ → BlockType
  | .entry _ => .entry
  | .persistentParamDb _ => .persistentParamDb
  | .staticParamDb _ => .staticParamDb
  | .meshParamDb _ _ _ => .meshParamDb
  | .meshVariation _ => .meshVariation

/-- `m_resources` of a static block. -/
def references : ShaderBlock ρ → List ρ
  | .entry resources | .staticParamDb resources => resources
  | _ => []

/-- The block with other references. -/
def mapM (f : ρ → Except Fault τ) : ShaderBlock ρ → Except Fault (ShaderBlock τ)
  | .entry resources => return .entry (← resources.mapM f)
  | .persistentParamDb parameters => return .persistentParamDb parameters
  | .staticParamDb resources => return .staticParamDb (← resources.mapM f)
  | .meshParamDb guid lodIndex parameters => return .meshParamDb guid lodIndex parameters
  | .meshVariation refs => return .meshVariation refs

end ShaderBlock

/-! ## Reading -/

/-- `0xad0abfd3`, the type hash of an `ITexture`. -/
def iTexture : UInt32 := 0xad0abfd3

/-- The constructor `ParameterEntry(buffer)`. -/
def ParameterEntry.read : BufM ParameterEntry := do
  let parameterHash ← getLong
  let typeHash ← getInt
  let used ← getShort
  let nameHash := (← getShort).toUInt32 <<< 16 ||| ((parameterHash >>> 48) &&& 0xFFFF).toUInt32
  let stored ← getInt
  let size := if typeHash = iTexture then 16 else stored
  -- The size is an `int32_t`, which the vector is resized to.
  if size.toNat < 2 ^ 31 then
    return { nameHash, typeHash, used, value := ← getBytes size.toNat, parameterHash }
  else throw .overflow

def readParameters : BufM (List ParameterEntry) := do
  let count ← getInt
  repeatM ParameterEntry.read count.toNat

/-- A loop with a 32-bit index up to a 64-bit count, which it may never reach. -/
def readCounted {α : Type} (count : UInt64) (r : BufM α) : BufM (List α) :=
  if count.toNat < 2 ^ 32 then repeatM r count.toNat else throw .fuel

/-- `setReadPos` takes 32 bits of a 64-bit offset. -/
def seek (offset : UInt64) : BufM Unit := setReadPos (offset.toNat % 2 ^ 32)

/-- `Read` of the two classes of static blocks, up to the pointers. -/
def readStatic : BufM (List UInt32) := do
  let offset ← getLong
  let size ← getLong
  seek offset
  readCounted size getInt

/-- `Read`, by class. References are indices. -/
def ShaderBlock.read : BlockType → BufM (ShaderBlock UInt32)
  | .entry => return .entry (← readStatic)
  | .persistentParamDb => do
      let offset ← getLong
      let _size ← getLong
      seek offset
      return .persistentParamDb (← readParameters)
  | .staticParamDb => return .staticParamDb (← readStatic)
  | .meshParamDb => do
      let offset ← getLong
      let _size ← getInt
      let lodIndex ← getInt
      let guid ← getBytes16
      seek offset
      return .meshParamDb guid lodIndex (← readParameters)
  | .meshVariation => do
      let offset ← getLong
      let count ← getLong
      seek offset
      return .meshVariation (← readCounted count do
        let guid ← getBytes16
        let ref ← getInt
        return (guid, ref))

def ShaderBlockResource.read (type : BlockType) : BufM (ShaderBlockResource UInt32) := do
  let hash ← getLong
  return { hash, block := ← ShaderBlock.read type }

/-- One entry of a directory: where the record is, and its type, none if there is no
such type. -/
def readDirectoryEntry : BufM (UInt64 × Option BlockType) := do
  let offset ← getLong
  let type ← getLong
  return (offset, BlockType.ofValue type)

/-- The record of a directory entry. -/
def readRecord : UInt64 × Option BlockType → BufM (ShaderBlockResource UInt32)
  -- The hook follows a null pointer; `Load` stops at a breakpoint.
  | (_, none) => throw .outOfBounds
  | (offset, some type) => do
      seek offset
      ShaderBlockResource.read type

/-! ## Writing -/

/-- `WritePadding`, which ends within `alignment` rounds. -/
def writePadding (alignment : Nat) : BufM Unit := padRounds alignment alignment

def ParameterEntry.write (p : ParameterEntry) : BufM Unit := do
  putLong p.parameterHash
  putInt p.typeHash
  putShort p.used
  putShort (p.nameHash >>> 16).toUInt16
  putInt (if p.typeHash = iTexture then 1 else UInt32.ofNat p.value.length)
  putBytes p.value p.value.length

/-- The payload of a parameter block, answering its size. -/
def writeParameters (parameters : List ParameterEntry) : BufM Nat := do
  let offset ← getWritePos
  putInt (UInt32.ofNat parameters.length)
  parameters.forM ParameterEntry.write
  return (← getWritePos) - offset

/-- Where a record starts, and where its data offset is. -/
structure RecordPos where
  startOffset : Nat
  pointer : Nat
  deriving DecidableEq, Repr

/-- `ShaderBlockResource::Write`, of the base class. -/
def writeHash (hash : UInt64) : BufM RecordPos := do
  let startOffset ← getWritePos
  putLong hash
  return { startOffset, pointer := ← getWritePos }

/-- `Write` of the two classes of static blocks, with the indices of the blocks that
the pointers lead to. -/
def writeStatic (hash : UInt64) (resources : List UInt32) : BufM RecordPos := do
  let offset ← getWritePos
  resources.forM putInt
  writePadding 0x08
  let pos ← writeHash hash
  putLong (UInt64.ofNat offset)
  putLong (UInt64.ofNat resources.length)
  return pos

/-- `Write`, by class. -/
def ShaderBlockResource.write (r : ShaderBlockResource UInt32) : BufM RecordPos :=
  match r.block with
  | .entry resources => writeStatic r.hash resources
  | .persistentParamDb parameters => do
      let offset ← getWritePos
      let size ← writeParameters parameters
      writePadding 0x08
      let pos ← writeHash r.hash
      putLong (UInt64.ofNat offset)
      putLong (UInt64.ofNat size)
      return pos
  | .staticParamDb resources => writeStatic r.hash resources
  | .meshParamDb guid lodIndex parameters => do
      let offset ← getWritePos
      let size ← writeParameters parameters
      writePadding 0x08
      let pos ← writeHash r.hash
      putLong (UInt64.ofNat offset)
      putInt (UInt32.ofNat size)
      putInt lodIndex
      putBytes guid.toList 16
      return pos
  | .meshVariation refs => do
      let offset ← getWritePos
      refs.forM fun ref => do
        putBytes ref.1.toList 16
        putInt ref.2
      writePadding 0x08
      let pos ← writeHash r.hash
      putLong (UInt64.ofNat offset)
      putLong (UInt64.ofNat refs.length)
      return pos

/-- The loop over the blocks, from the one with the index `i` on: where their records
are, and the relocation table. -/
def writeRecords : Nat → List (ShaderBlockResource UInt32) → BufM (List Nat × List UInt32)
  | _, [] => return ([], [])
  | i, r :: rs => do
      let pos ← r.write
      let (offsets, relocTable) ← writeRecords (i + 1) rs
      return (pos.startOffset :: offsets,
        UInt32.ofNat pos.pointer :: UInt32.ofNat (i * 0x10) :: relocTable)

/-- The depot with an empty directory, which is filled at the end; answering
`fullSize` and the relocation table. -/
def writeDepot (rs : List (ShaderBlockResource UInt32)) : BufM (Nat × List UInt32) := do
  rs.forM fun _ => do
    putLong 0
    putLong 0
  let (offsets, relocTable) ← writeRecords 0 rs
  writePadding 0x10
  let fullSize ← getWritePos
  setWritePos 0
  (offsets.zip rs).forM fun (offset, r) => do
    putLong (UInt64.ofNat offset)
    putLong r.block.type.value
  return (fullSize, relocTable)

/-! ## Blocks of mods -/

/-- A pointer to a block of the depot, or of the mods. -/
inductive BlockRef
  | vanilla (i : Nat)
  | modified (i : Nat)
  deriving DecidableEq, Repr

/-- The blocks of the mods for one depot, `m_hashes` and `m_resources`. -/
structure ModifiedShaderBlockDepot where
  resources : List (UInt64 × ShaderBlockResource BlockRef) := []
  deriving DecidableEq, Repr

namespace ModifiedShaderBlockDepot

def containsHash (depot : ModifiedShaderBlockDepot) (hash : UInt64) : Bool :=
  depot.resources.any (·.1 == hash)

/-- Where `GetResource` finds its answer. -/
def getResource (depot : ModifiedShaderBlockDepot) (hash : UInt64) : Option Nat :=
  depot.resources.findIdx? (·.1 == hash)

/-- The loop that replaces the blocks that are there. -/
def replace (depot : ModifiedShaderBlockDepot) (blocks : List (ShaderBlockResource BlockRef)) :
    ModifiedShaderBlockDepot where
  resources := depot.resources.map fun (hash, resource) =>
    (hash, (blocks.find? (·.hash == hash)).getD resource)

/-- The loop that adds those that are not. -/
def add (depot : ModifiedShaderBlockDepot) (blocks : List (ShaderBlockResource BlockRef)) :
    ModifiedShaderBlockDepot :=
  blocks.foldl (fun depot block =>
    if depot.containsHash block.hash then depot
    else ⟨depot.resources ++ [(block.hash, block)]⟩) depot

/-- `ReadPadding`. -/
def readPadding (alignment : Nat) : BufM Unit :=
  modify fun b => b.skip ((alignment - b.rpos % alignment) % alignment)

/-- The blocks of one mod. There is no list of entries to look references up in. -/
def readBlocks : BufM (List (ShaderBlockResource BlockRef)) := do
  let count ← getInt
  readPadding 0x10
  let directory ← repeatM readDirectoryEntry count.toNat
  directory.mapM fun entry => do
    let r ← readRecord entry
    let block ← r.block.mapM fun _ => throw .outOfBounds
    return { hash := r.hash, block }

def load (depot : ModifiedShaderBlockDepot) (bytes : List UInt8) :
    Except Fault ModifiedShaderBlockDepot := do
  let (blocks, _) ← readBlocks.run (.ofBytes bytes)
  return (depot.replace blocks).add blocks

/-- The resource is one of the depot's. -/
def collects (resName : ByteString) (resource : ModResource) : Bool :=
  resource.type == .res && resource.name == resName && resource.handlerHash != 0

/-- The data of a resource behind the name of its type. Without a terminator
`size - typeName.size() - 1` wraps, and the bytes behind the buffer are read. -/
def handlerData (data : ModResourceData) : Except Fault (List UInt8) := do
  let buf ← data.toByteBuffer
  let (typeName, _) ← getNullTerminatedString.run buf
  if typeName.length < buf.buf.length then
    return buf.buf.drop (typeName.length + 1)
  else
    throw .outOfBounds

def collect (resName : ByteString) (modResources : List ModResource) :
    Except Fault ModifiedShaderBlockDepot :=
  let supply (depot : ModifiedShaderBlockDepot) (resource : ModResource) := do
    depot.load (← handlerData resource.data)
  (modResources.filter (collects resName)).foldlM supply {}

end ModifiedShaderBlockDepot

/-! ## The hook -/

/-- The blocks in memory: the pointers in the order of the depot, the depot's own
blocks from when they are read until they are deleted, and the blocks of the mods. -/
structure Blocks where
  entries : List BlockRef
  vanilla : List (Option (ShaderBlockResource BlockRef))
  modified : List (ShaderBlockResource BlockRef)
  deriving DecidableEq, Repr

namespace Blocks

/-- `(*entries)[index]`, for an `int32_t`. -/
def entryAt (entries : List BlockRef) (index : UInt32) : Except Fault BlockRef :=
  if index.toNat < 2 ^ 31 then
    match entries[index.toNat]? with
    | some entry => return entry
    | none => throw .outOfBounds
  else throw .outOfBounds

/-- The blocks as they are constructed. Their fields are set when they are read. -/
def construct (count : Nat) (depot : ModifiedShaderBlockDepot) : Blocks where
  entries := (List.range count).map .vanilla
  vanilla := List.replicate count none
  modified := depot.resources.map Prod.snd

/-- The body of the loop behind the reading of the block with the index `i`: a block
that a mod has is put in its place, and the block of the depot is deleted. -/
def place (blocks : Blocks) (depot : ModifiedShaderBlockDepot) (i : Nat)
    (r : ShaderBlockResource UInt32) : Except Fault Blocks := do
  let block ← r.block.mapM (entryAt blocks.entries)
  match depot.getResource r.hash with
  | some existing =>
      return { blocks with
        entries := blocks.entries.set i (.modified existing)
        modified := blocks.modified.modify existing ({ · with index := UInt32.ofNat i }) }
  | none =>
      return { blocks with
        vanilla := blocks.vanilla.set i
          (some { index := UInt32.ofNat i, hash := r.hash, block }) }

/-- The loop that reads the blocks, from the one with the index `i` on. -/
def readBlocks (depot : ModifiedShaderBlockDepot) :
    Nat → List (UInt64 × Option BlockType) → Blocks → BufM Blocks
  | _, [], blocks => return blocks
  | i, entry :: directory, blocks => do
      let r ← readRecord entry
      let blocks ← blocks.place depot i r
      readBlocks depot (i + 1) directory blocks

/-- The block that a pointer leads to. -/
def follow (blocks : Blocks) : BlockRef → Except Fault (ShaderBlockResource BlockRef)
  | .vanilla i =>
      match blocks.vanilla[i]? with
      | some (some r) => return r
      | _ => throw .outOfBounds
  | .modified i =>
      match blocks.modified[i]? with
      | some r => return r
      | none => throw .outOfBounds

/-- The index that is written for a reference. -/
def indexOf (blocks : Blocks) (ref : BlockRef) : Except Fault UInt32 := do
  return (← blocks.follow ref).index

/-- A block as it is written, with the indices of the blocks it refers to. -/
def written (blocks : Blocks) (ref : BlockRef) : Except Fault (ShaderBlockResource UInt32) := do
  let r ← blocks.follow ref
  return { hash := r.hash, block := ← r.block.mapM blocks.indexOf }

end Blocks

/-- What the game is given for a depot. -/
structure DepotImage where
  bytes : List UInt8
  fullSize : UInt32
  relocTable : List UInt32
  relocTableCount : UInt32
  sbResourceCount : UInt32
  deriving DecidableEq, Repr

/-- The blocks after the substitution, read from the depot's bytes. -/
def substituteBlocks (depot : ModifiedShaderBlockDepot) (sbResourceCount : UInt32) :
    BufM Blocks := do
  let directory ← repeatM readDirectoryEntry sbResourceCount.toNat
  Blocks.readBlocks depot 0 directory (.construct sbResourceCount.toNat depot)

/-- `ShaderBlockDepotLoaderFixupTurboBulkHk`, up to the call of the game's function. -/
def shaderBlockDepotLoaderFixupTurboBulk (modResources : List ModResource) (name : ByteString)
    (sbResourceCount : UInt32) (bytes : List UInt8) : Except Fault DepotImage := do
  let depot ← ModifiedShaderBlockDepot.collect name modResources
  let (blocks, _) ← (substituteBlocks depot sbResourceCount).run (.ofBytes bytes)
  let rs ← blocks.entries.mapM blocks.written
  let ((fullSize, relocTable), buffer) ← (writeDepot rs).run {}
  return {
    bytes := buffer.buf.take fullSize
    fullSize := UInt32.ofNat fullSize
    relocTable
    relocTableCount := UInt32.ofNat (relocTable.length * 4)
    sbResourceCount := UInt32.ofNat rs.length }

/-- The blocks of a depot as they are in its records, read as the hook reads them. -/
def readRecords (sbResourceCount : UInt32) : BufM (List (ShaderBlockResource UInt32)) := do
  let directory ← repeatM readDirectoryEntry sbResourceCount.toNat
  directory.mapM readRecord

def readDepot (sbResourceCount : UInt32) (bytes : List UInt8) :
    Except Fault (List (ShaderBlockResource UInt32)) := do
  return (← (readRecords sbResourceCount).run (.ofBytes bytes)).1

end Kyber.ModLoader
