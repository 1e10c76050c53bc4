import Kyber.ModLoader.Types

/-!
# Overridden chunk reads (the chunk hooks of `ModLoader.cpp`)

A mod can replace a chunk (`ModifyChunk`). The hooks of the engine's chunk reads
then serve reads of that chunk themselves: `BeginChunkRead` files the read in a
table of pending reads under a random id, polling a handle that is in the table
answers true, and `EndChunkRead` copies the data and removes the entry. Every
other call goes through to the engine.

Only what decides between the table and the engine is modelled. What the engine
answers to a call that reaches it is not, so an `Answer` says who answered.

The `Ex` variants of poll and end have the same bodies.
-/

namespace Kyber.ModLoader

/-- Who answers a hooked call. -/
inductive Answer
  | table
  | engine
  deriving DecidableEq, Repr

structure ModifiedChunk where
  guid : Guid
  data : List UInt8
  size : UInt32
  deriving DecidableEq, Repr

/-- Where a caller wants its data. -/
abbrev BufferId := Nat

structure PendingChunk where
  handle : Int64
  src : List UInt8
  srcSize : UInt32
  dst : BufferId
  dstSize : UInt32
  dstOffset : UInt32
  deriving DecidableEq, Repr

/-- A read of an overridden chunk: the value its `BeginChunkRead` returned, the
override at that time and the caller's buffer. -/
structure ChunkRead where
  handle : UInt64
  data : List UInt8
  srcSize : UInt32
  dst : BufferId
  dstSize : UInt32
  deriving DecidableEq, Repr

/-- The two maps and the memory the data goes to. `inFlight` is history: the reads
of overridden chunks that have begun and whose handle has not been passed to
`EndChunkRead` since. No call reads it. -/
structure ChunkReads where
  modified : Std.TreeMap Guid ModifiedChunk := {}
  pending : Std.TreeMap Int64 PendingChunk := {}
  memory : BufferId → List UInt8 := fun _ => []
  inFlight : List ChunkRead := []

inductive ChunkCall
  | modifyChunk (guid : Guid) (data : List UInt8) (size : UInt32)
  /-- `rand` is what `rand()` answers if it is asked. -/
  | beginChunkRead (guid : Guid) (buffer : BufferId) (size : UInt32) (rand : Nat)
  | pollChunkOperation (handle : UInt64)
  | endChunkRead (handle : UInt64)
  deriving DecidableEq, Repr

namespace ChunkReads

def modifyChunk (s : ChunkReads) (guid : Guid) (data : List UInt8) (size : UInt32) :
    ChunkReads :=
  { s with modified := s.modified.insert guid { guid, data, size } }

/-- `rand() % 100000`. -/
def handleId (rand : Nat) : Nat := rand % 100000

/-- What `BeginChunkRead` returns for an overridden chunk. -/
def returnedHandle (rand : Nat) : UInt64 := (2 : UInt64) <<< 56 ||| UInt64.ofNat (handleId rand)

/-- The read is filed with `emplace`, which keeps an entry that is there. -/
def beginChunkRead (s : ChunkReads) (guid : Guid) (buffer : BufferId) (size : UInt32)
    (rand : Nat) : Answer × ChunkReads :=
  match s.modified[guid]? with
  | none => (.engine, s)
  | some chunk =>
      let pendingChunk : PendingChunk :=
        { handle := Int64.ofNat (handleId rand)
          src := chunk.data, srcSize := chunk.size
          dst := buffer, dstSize := size, dstOffset := 0 }
      let read : ChunkRead :=
        { handle := returnedHandle rand, data := chunk.data, srcSize := chunk.size
          dst := buffer, dstSize := size }
      (.table, { s with pending := s.pending.insertIfNew (Int64.ofNat (handleId rand)) pendingChunk
                        inFlight := s.inFlight ++ [read] })

/-- The loop of poll and end over the table, comparing the key as a `uint64_t`. -/
def findPending (s : ChunkReads) (handle : UInt64) : Option (Int64 × PendingChunk) :=
  s.pending.toList.find? fun entry => entry.1.toUInt64 = handle

def pollChunkOperation (s : ChunkReads) (handle : UInt64) : Answer :=
  match s.findPending handle with
  | some _ => .table
  | none => .engine

/-- `MemoryUtils::Patch(dst, src, size)`. -/
def patch (memory : BufferId → List UInt8) (dst : BufferId) (src : List UInt8) (size : UInt32) :
    BufferId → List UInt8 :=
  Function.update memory dst (overwrite (memory dst) 0 (src.take size.toNat))

def endChunkRead (s : ChunkReads) (handle : UInt64) : Answer × ChunkReads :=
  let inFlight := s.inFlight.filter fun read => read.handle ≠ handle
  match s.findPending handle with
  | some (key, pendingChunk) =>
      (.table, { s with
        memory := patch s.memory pendingChunk.dst pendingChunk.src
          (min pendingChunk.dstSize pendingChunk.srcSize)
        pending := s.pending.erase key
        inFlight })
  | none => (.engine, { s with inFlight })

/-- Every call is possible in every state. -/
def step (s : ChunkReads) : ChunkCall → Option ChunkReads
  | .modifyChunk guid data size => some (s.modifyChunk guid data size)
  | .beginChunkRead guid buffer size rand => some (s.beginChunkRead guid buffer size rand).2
  | .pollChunkOperation _ => some s
  | .endChunkRead handle => some (s.endChunkRead handle).2

end ChunkReads

end Kyber.ModLoader
