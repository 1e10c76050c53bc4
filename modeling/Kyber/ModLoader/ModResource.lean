import Kyber.ModLoader.Types

/-!
# Mod resources and their precedence (`KyberMod.h`, `ModLoader.cpp`)

Every mod brings a list of resources. `FinalizeModLoads` puts them all into one
vector, highest priority first and sorted by type, lets resources without data
inherit it from the highest resource of the same id that has some, and makes a
list of resources for each bundle.

`globalOverrides` maps ids to pointers into the vector, which the next stage
changes in place. A pointer is modelled by its index, and followed where the
source follows it.

The loader calls `FinalizeModLoads` once, when its maps are still empty.
-/

namespace Kyber.ModLoader

/-- `RTFrostyResourceTypeE`. The type is read from a byte of the mod file, so it
can be a number that has no name: `unknown n` is `6 + n`. -/
inductive ResourceType
  | invalid
  | embedded
  | ebx
  | res
  | chunk
  | bundle
  | unknown (n : Nat)
  deriving DecidableEq, Repr

/-- The number of a type, which types are compared by. -/
def ResourceType.value : ResourceType → Nat
  | .invalid => 0
  | .embedded => 1
  | .ebx => 2
  | .res => 3
  | .chunk => 4
  | .bundle => 5
  | .unknown n => 6 + n

/-- `ModResourceData`. The buffer is null unless a handler is to read it. -/
structure ModResourceData where
  size : UInt64
  originalSize : UInt64
  buffer : Option (List UInt8)
  fbFile : Int32
  dataOffset : UInt32
  resType : UInt32
  resRid : UInt64
  resMeta : Vector UInt8 16
  rangeStart : UInt32
  rangeEnd : UInt32
  logicalOffset : UInt32
  logicalSize : UInt32
  h32 : Int32
  firstMip : Int32
  deriving DecidableEq, Repr

/-- `ByteBuffer(data.buffer, data.size)`, for a handler. A null buffer makes an empty
byte buffer, and reading the name that is first is out of bounds. -/
def ModResourceData.toByteBuffer (data : ModResourceData) : Except Fault ByteBuffer :=
  match data.buffer with
  | none => throw .outOfBounds
  | some buffer => return .ofBytes (buffer.take data.size.toUInt32.toNat)

/-- `ModResource`, without the mod's name and index, which only logs show. The
name comes from a C string, so it is its own `c_str()`. -/
structure ModResource where
  type : ResourceType
  name : ByteString
  bundles : List UInt32
  handlerHash : Int32
  resourceIndex : Int32
  dupedWithHandler : Bool
  data : ModResourceData
  uniqueIdWithType : UInt32
  deriving DecidableEq, Repr

structure KyberMod where
  resources : List ModResource

structure KyberHandledModResource where
  handlerHash : Int32
  dupedWithHandler : Bool
  deriving DecidableEq, Repr

namespace ModResource

def containsBundle (r : ModResource) (hash : UInt32) : Bool := r.bundles.contains hash

/-- The resource has data, and no handler to merge it. -/
def handlerFreeData (r : ModResource) : Bool := r.handlerHash == 0 && r.resourceIndex != -1

/-- The resource takes part in bundles. -/
def inBundles (r : ModResource) : Bool := r.handlerHash == 0 || r.dupedWithHandler

end ModResource

/-! ## Stages 1 to 3: whose data -/

/-- The order of `m_modResources`. -/
def leType (a b : ModResource) : Bool := a.type.value ≤ b.type.value

/-- The mods' resources, from highest priority to lowest. -/
def byPriority (mods : List KyberMod) : List ModResource := mods.reverse.flatMap (·.resources)

/-- `sources` and `globalOverrides`, the latter with indices for pointers. -/
structure Sources where
  data : Std.TreeMap UInt32 ModResourceData := {}
  overrides : Std.TreeMap UInt32 Nat := {}

/-- The body of stage 2, for the resource at the index `i`. -/
def Sources.visit (sources : Sources) (i : Nat) (r : ModResource) : Sources :=
  if r.handlerHash ≠ 0 ∨ r.resourceIndex = -1 then
    sources
  else if sources.data.contains r.uniqueIdWithType then
    sources
  else
    { data := sources.data.insert r.uniqueIdWithType r.data
      overrides := sources.overrides.insert r.uniqueIdWithType i }

/-- Stage 2; `i` is the index of the first resource of the list. -/
def collectSources : List ModResource → Nat → Sources → Sources
  | [], _, sources => sources
  | r :: rs, i, sources => collectSources rs (i + 1) (sources.visit i r)

/-- Stage 3 on one resource. -/
def inheritData (data : Std.TreeMap UInt32 ModResourceData) (r : ModResource) : ModResource :=
  if r.handlerHash ≠ 0 ∨ r.resourceIndex ≠ -1 then
    r
  else
    match data[r.uniqueIdWithType]? with
    | none => r
    | some source => { r with resourceIndex := 0, data := source }

/-! ## Stage 4: handlers -/

def collectHandlers : List ModResource → Std.TreeSet UInt32 →
    Std.TreeMap ByteString KyberHandledModResource →
    Std.TreeMap ByteString KyberHandledModResource
  | [], _, handlers => handlers
  | r :: rs, visited, handlers =>
      if r.type = .ebx ∧ r.data.buffer.isSome ∧ r.handlerHash ≠ 0 ∧
          !visited.contains r.uniqueIdWithType then
        collectHandlers rs (visited.insert r.uniqueIdWithType)
          (handlers.insert r.name
            { handlerHash := r.handlerHash, dupedWithHandler := r.dupedWithHandler })
      else
        collectHandlers rs visited handlers

/-! ## Stages 5 to 7: the resources of the bundles

Stages 5 and 7 are the same two loops: over the resources, and over the bundles
of each that have not seen its id. They differ in what they do then. -/

/-- `visitedNamesSecondPass` and `visitedNames`. -/
abbrev Visited := Std.TreeMap UInt32 (Std.TreeSet UInt32)

section Visit

variable {σ : Type}

/-- The loop over a resource's bundles. -/
def visitBundles (onNew : σ → UInt32 → σ) (id : UInt32) :
    List UInt32 → Visited → σ → Visited × σ
  | [], visited, s => (visited, s)
  | b :: bundles, visited, s =>
      let names := visited.getD b {}
      if names.contains id then
        visitBundles onNew id bundles (visited.insert b names) s
      else
        visitBundles onNew id bundles (visited.insert b (names.insert id)) (onNew s b)

def visitResources (onNew : ModResource → σ → UInt32 → σ) :
    List ModResource → Visited → σ → σ
  | [], _, s => s
  | r :: rs, visited, s =>
      if r.handlerHash ≠ 0 ∧ !r.dupedWithHandler then
        visitResources onNew rs visited s
      else
        let (visited, s) := visitBundles (onNew r) r.uniqueIdWithType r.bundles visited s
        visitResources onNew rs visited s

end Visit

/-- `++bundleResourceCounts[bundleHash]`. -/
def countResource (_ : ModResource) (counts : Std.TreeMap UInt32 UInt32) (b : UInt32) :
    Std.TreeMap UInt32 UInt32 :=
  counts.insert b (counts.getD b 0 + 1)

/-- `assignableResource`. -/
def assignableResource (modResources : List ModResource) (overrides : Std.TreeMap UInt32 Nat)
    (r : ModResource) : ModResource :=
  if r.bundles.isEmpty then
    r
  else
    match overrides[r.uniqueIdWithType]? with
    | none => r
    | some i => modResources.getD i r

/-- `m_bundleResources[bundleHash].push_back(*assignableResource)`. -/
def addResource (assignable : ModResource → ModResource) (r : ModResource)
    (lists : Std.TreeMap UInt32 (List ModResource)) (b : UInt32) :
    Std.TreeMap UInt32 (List ModResource) :=
  lists.insert b (lists.getD b [] ++ [assignable r])

/-- What `FinalizeModLoads` leaves in the loader, and the numbers that it reserves
room for. -/
structure FinalizedMods where
  modResources : List ModResource
  handlerResources : Std.TreeMap ByteString KyberHandledModResource
  reserved : Std.TreeMap UInt32 UInt32
  bundleResources : Std.TreeMap UInt32 (List ModResource)

def finalizeModLoads (mods : List KyberMod) : FinalizedMods :=
  let modResources := (byPriority mods).mergeSort leType
  let sources := collectSources modResources 0 {}
  let modResources := modResources.map (inheritData sources.data)
  { modResources
    handlerResources := collectHandlers modResources {} {}
    reserved := visitResources countResource modResources {} {}
    bundleResources := visitResources
      (addResource (assignableResource modResources sources.overrides)) modResources {} {} }

/-- `m_bundleResources[bundleHash]`. -/
def FinalizedMods.resourcesOf (mods : FinalizedMods) (bundleHash : UInt32) : List ModResource :=
  mods.bundleResources.getD bundleHash []

end Kyber.ModLoader
