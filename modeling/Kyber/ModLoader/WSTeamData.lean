import Kyber.Lib.Members
import Kyber.ModLoader.Localization

/-!
# The kits of a team (`WSTeamDataHandler.cpp`, `CustomAssetHandler.cpp`)

A team has five lists of kits, and five more for the players of the game itself. The handler of
team data lets each mod add to these lists: what a mod brings is loaded behind what has been
loaded of others, and in the end each list that is not empty is put into the team's asset, without
the kits that it has twice. Next to a list of kits there are two more, of the characters that the
kits are for and of their classes.

A mod's data begin with the lists in their old format. Newer data have them again behind that, in
a format of its own version, and these are to be taken instead.

The members of the asset that are near-identical are indexed by the kind of kit. Where the source
names a member of its own for each kind, the kinds are in the order in which it goes through them.
-/

namespace Kyber.ModLoader

open Kyber.Lib

/-! ## References to assets -/

structure EbxImportReference where
  partitionGuid : Guid
  instanceGuid : Guid
  deriving DecidableEq

/-- `Guid{}`. -/
def Guid.zero : Guid := Vector.replicate 16 0

/-- `IsZero()`. -/
def Guid.isZero (g : Guid) : Bool := g.toList.all (· == 0)

/-- The instance, then the partition. -/
def parseReference : BufM EbxImportReference := do
  let classGuid ← getBytes16
  let fileGuid ← getBytes16
  return { partitionGuid := fileGuid, instanceGuid := classGuid }

/-- The partition, then the instance. -/
def parseReference2 : BufM EbxImportReference := do
  let fileGuid ← getBytes16
  let classGuid ← getBytes16
  return { partitionGuid := fileGuid, instanceGuid := classGuid }

/-- What the game knows of the partitions of a domain, `π`, and of their instances, `α`. -/
structure Domain (π α : Type) where
  /-- `RuntimeDatabaseDomain_findPartitionFromGuidIncludingImports` -/
  findPartition : Guid → Option π
  /-- `m_domainLoadedPartitions[domain]` -/
  loadedPartitions : Guid → Option π
  /-- `FindInstanceByGuid` -/
  findInstance : π → Guid → Option α

def findDataContainer {π α : Type} (domain : Domain π α) (ref : EbxImportReference) : Option α :=
  if ref.partitionGuid.isZero then
    none
  else
    match (domain.findPartition ref.partitionGuid).or
        (domain.loadedPartitions ref.partitionGuid) with
    | none => none
    | some partition => domain.findInstance partition ref.instanceGuid

/-! ## What is loaded -/

/-- The kinds of kits. -/
inductive TeamSlot
  | soldiers
  | specialSoldiers
  | heroes
  | vehicles
  | heroVehicles
  deriving DecidableEq, Repr

structure TeamKitMergeData where
  kitRef : EbxImportReference
  classIdentifier : UInt32
  gpIdentifier : UInt32
  deriving DecidableEq

/-- `kits` are `soldiers`, `specialSoldiers`, `heroes`, `vehicles` and `heroVehicles`, and `apKits`
are `apSoldiers` and so on. -/
structure WSTeamDataMergeData where
  isAdded : Bool := false
  partitionGuid : Guid := .zero
  rootInstanceGuid : Guid := .zero
  internalId : UInt32 := 0
  wsFaction : EbxImportReference := ⟨.zero, .zero⟩
  wsPlanetId : UInt32 := 0
  kits : TeamSlot → List TeamKitMergeData := fun _ => []
  apKits : TeamSlot → List EbxImportReference := fun _ => []
  allPlayerAbilities : List EbxImportReference := []

/-- A count, then as many elements. The count is an `int`, and no vector is made for a negative
one. -/
def readVector {α : Type} (r : BufM α) : BufM (List α) := do
  let count ← getInt
  if count.toNat < 2 ^ 31 then
    repeatM r count.toNat
  else
    throw .overflow

/-- `bytesRemaining()`. -/
def bytesRemaining : BufM UInt32 := do
  let s ← get
  return UInt32.ofNat s.size - UInt32.ofNat s.rpos

namespace WSTeamDataMergeData

/-- An entry of the old format. -/
def readLegacyKit : BufM TeamKitMergeData := do
  let kitRef ← parseReference
  let classIdentifier ← getInt
  let gpIdentifier ← getInt
  return { kitRef, classIdentifier, gpIdentifier }

/-- The lists of the old format, from some kind of kit on. -/
def loadLegacyLists : List TeamSlot → WSTeamDataMergeData → BufM WSTeamDataMergeData
  | [], data => return data
  | slot :: slots, data => do
      let kits ← readVector readLegacyKit
      let apKits ← readVector parseReference
      loadLegacyLists slots { data with
        kits := Function.update data.kits slot (data.kits slot ++ kits)
        apKits := Function.update data.apKits slot (data.apKits slot ++ apKits) }

/-- `LoadLegacy`. -/
def loadLegacy (data : WSTeamDataMergeData) : BufM WSTeamDataMergeData := do
  let wsFaction ← parseReference2
  let data ← loadLegacyLists [.soldiers, .specialSoldiers, .heroes, .vehicles, .heroVehicles]
    { data with wsFaction }
  if (← bytesRemaining) = 0 then
    return { data with wsFaction := ⟨data.wsFaction.instanceGuid, data.wsFaction.partitionGuid⟩ }
  else
    return data

/-- An entry of the new format. Whether it is hidden is read and forgotten. -/
def readKit : BufM TeamKitMergeData := do
  let kitRef ← parseReference2
  let classIdentifier ← getInt
  let gpIdentifier ← getInt
  let _ ← getByte
  return { kitRef, classIdentifier, gpIdentifier }

/-- `ReadTeamDataKitReferences`. -/
def readTeamDataKitReferences : BufM (List TeamKitMergeData) := readVector readKit

/-- `ReadPointerRefs`. -/
def readPointerRefs : BufM (List EbxImportReference) := readVector parseReference2

/-- The lists of the new format, from some kind of kit on. -/
def loadLists : List TeamSlot → WSTeamDataMergeData → BufM WSTeamDataMergeData
  | [], data => return data
  | slot :: slots, data => do
      let kits ← readTeamDataKitReferences
      let apKits ← readPointerRefs
      loadLists slots { data with
        kits := Function.update data.kits slot kits
        apKits := Function.update data.apKits slot apKits }

/-- What `Load` reads behind the version. -/
def loadUpdate (data : WSTeamDataMergeData) : BufM WSTeamDataMergeData := do
  let isAdded := (← getByte) == 1
  let data ← if isAdded then do
      let partitionGuid ← getBytes16
      let rootInstanceGuid ← getBytes16
      let internalId ← getInt
      pure { data with isAdded, partitionGuid, rootInstanceGuid, internalId }
    else
      pure { data with isAdded }
  let wsPlanetId ← getInt
  let data ← loadLists [.soldiers, .heroes, .specialSoldiers, .vehicles, .heroVehicles]
    { data with wsPlanetId }
  if data.isAdded then
    let allPlayerAbilities ← readPointerRefs
    return { data with allPlayerAbilities }
  else
    return data

def kHandlerVersion : Int32 := 3

/-- `MopMagicMopMagic`. -/
def updateMagic : ByteString :=
  [0x4D, 0x6F, 0x70, 0x4D, 0x61, 0x67, 0x69, 0x63, 0x4D, 0x6F, 0x70, 0x4D, 0x61, 0x67, 0x69, 0x63]

/-- `WSTeamDataHandler::Load`. -/
def load (data : WSTeamDataMergeData) : BufM WSTeamDataMergeData := do
  let data ← loadLegacy data
  if (← bytesRemaining) = 0 then
    return data
  else
    let magic ← getNullTerminatedString
    let version ← getInt
    if magic ≠ updateMagic ∨ version.toInt32 > kHandlerVersion then
      return data
    else if version.toInt32 = 2 then
      return data
    else
      loadUpdate data

end WSTeamDataMergeData

/-- `WSTeamDataHandler`. -/
def wsTeamDataHandler {δ : Type} (derived : Derived WSTeamDataMergeData δ) :
    CustomAssetHandler δ :=
  genericCustomAssetHandler derived .referencesResolved {} WSTeamDataMergeData.load

/-! ## What is made of it -/

/-- `CharacterIdData`. -/
structure CharacterIdData where
  characterClassId : UInt32
  characterId : UInt32
  deriving DecidableEq, Repr

/-- The members of a team that point to lists of kits: `Soldiers` and so on, and
`AutoPlayerSoldiers` and so on. -/
inductive KitListMember
  | players (slot : TeamSlot)
  | autoPlayers (slot : TeamSlot)
  deriving DecidableEq, Repr

/-- `WSTeamData`, with the objects that its members point to: the `Kits` of the kit lists, the
`Characters` of `SoldierIdCollection` and so on, and the `CharacterClasses` of
`TrooperClassIdCollection` and so on. -/
structure WSTeamData (α : Type) where
  wsFaction : Option α
  wsPlanetId : UInt32
  kitLists : Members KitListMember (Option α)
  idCollections : Members TeamSlot CharacterIdData
  classIdCollections : Members TeamSlot UInt32
  allPlayerAbilities : List (Option α)

/-- `removeDuplicates`, which is there for kits and for references. -/
def removeDuplicates {β : Type} [DecidableEq β] (source : List β) : List β :=
  source.foldl (fun unique data => if unique.any (· == data) then unique else unique ++ [data]) []

section

variable {π α : Type} (domain : Domain π α)

/-- `Merge`, on members that are made first where they are null. -/
def merge (source : List TeamKitMergeData) (slot : TeamSlot) (teamData : WSTeamData α) :
    WSTeamData α :=
  let loggedClasses := source.foldl (fun logged kit =>
    if logged.contains kit.classIdentifier then logged else logged ++ [kit.classIdentifier]) []
  { teamData with
    kitLists := teamData.kitLists.assign (.players slot)
      (source.map fun kit => findDataContainer domain kit.kitRef)
    idCollections := teamData.idCollections.assign slot
      (source.map fun kit => ⟨kit.classIdentifier, kit.gpIdentifier⟩)
    classIdCollections := teamData.classIdCollections.assign slot loggedClasses }

/-- `MergeAP`. -/
def mergeAP (source : List EbxImportReference) (slot : TeamSlot) (teamData : WSTeamData α) :
    WSTeamData α :=
  { teamData with
    kitLists := teamData.kitLists.assign (.autoPlayers slot)
      (source.map (findDataContainer domain)) }

variable (data : WSTeamDataMergeData)

/-- `IMPLEMENT_MERGE`. -/
def implementMerge (slot : TeamSlot) (teamData : WSTeamData α) : WSTeamData α :=
  if (data.kits slot).isEmpty then teamData
  else merge domain (removeDuplicates (data.kits slot)) slot teamData

/-- `IMPLEMENT_MERGE_AP`. -/
def implementMergeAP (slot : TeamSlot) (teamData : WSTeamData α) : WSTeamData α :=
  if (data.apKits slot).isEmpty then teamData
  else mergeAP domain (removeDuplicates (data.apKits slot)) slot teamData

/-- The two merges of each kind of kit, one kind after the other. -/
def mergeSlots (slots : List TeamSlot) (teamData : WSTeamData α) : WSTeamData α :=
  slots.foldl (fun teamData slot =>
    implementMergeAP domain data slot (implementMerge domain data slot teamData)) teamData

/-- `WSTeamDataHandler::Modify`. -/
def WSTeamData.modify (teamData : WSTeamData α) : WSTeamData α :=
  let teamData := if data.isAdded then
    { teamData with
      wsFaction := findDataContainer domain data.wsFaction
      wsPlanetId := data.wsPlanetId }
    else teamData
  let teamData := mergeSlots domain data
    [.soldiers, .specialSoldiers, .heroes, .vehicles, .heroVehicles] teamData
  if data.allPlayerAbilities.isEmpty then
    teamData
  else
    { teamData with
      allPlayerAbilities := data.allPlayerAbilities.map (findDataContainer domain) }

end

end Kyber.ModLoader
