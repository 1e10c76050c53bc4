import Kyber.ModLoader.WSTeamData
import Kyber.Sdk.Containers

/-!
# Assets that mods add to (`ModLoader.cpp`, `NetworkRegistryHandler.cpp`, `UIMetaDataHandler.cpp`,
`ProfileOptionsHandler.cpp`, `MeshVariationHandler.cpp`)

Four handlers let mods add entries to an asset that is a list: network registries, the data of
menus, profile options and mesh variations. What the mods bring is collected in the order in which
it is loaded, and is then put behind the entries of the asset.

`RunHandler` calls `Modify` again until it returns true, and lets the engine update before. What
an update makes of the game is an argument. Of the game there is what handlers see of it: `A` is
the asset, and `π` are the partitions. An array is the list of its elements, a pointer is none if
it is null, and what is undefined has no result.
-/

namespace Kyber.ModLoader

open Kyber.Lib Kyber.Sdk

/-! ## Loading -/

/-- What the handlers of lists load into. -/
structure ListMergeData (β : Type) where
  values : List β := []

/-- A count, and the loop that is run as often. A negative count ends it at once. -/
def countedLoop {β : Type} (parse : BufM β) : BufM (List β) := do
  let count ← getInt
  repeatM parse (if count.toNat < 2 ^ 31 then count.toNat else 0)

/-- The loop that all of them have. -/
def ListMergeData.load {β : Type} (parse : BufM β) (data : ListMergeData β) :
    BufM (ListMergeData β) := do
  let values ← countedLoop parse
  return { values := data.values ++ values }

abbrev NetworkRegistryMergeData := ListMergeData EbxImportReference

abbrev UIMetaDataMergeData := ListMergeData EbxImportReference

/-- `values` are `options`. -/
abbrev ProfileOptionsMergeData := ListMergeData EbxImportReference

structure TextureShaderParameterMergeData where
  value : EbxImportReference
  parameterName : ByteString
  deriving DecidableEq

structure MeshVariationDatabaseMergeDataMaterial where
  material : EbxImportReference
  materialVariation : EbxImportReference
  materialId : UInt64
  textureParameters : List TextureShaderParameterMergeData
  surfaceShaderGuid : Guid
  surfaceShaderId : UInt32
  deriving DecidableEq

structure MeshVariationDatabaseMergeDataEntry where
  mesh : EbxImportReference
  materials : List MeshVariationDatabaseMergeDataMaterial
  variationAssetNameHash : UInt32
  deriving DecidableEq

abbrev MeshVariationMergeData := ListMergeData MeshVariationDatabaseMergeDataEntry

def parseTexture : BufM TextureShaderParameterMergeData := do
  let value ← parseReference
  let parameterName ← getNullTerminatedString
  return { value, parameterName }

def parseMaterial : BufM MeshVariationDatabaseMergeDataMaterial := do
  let material ← parseReference
  let materialVariation ← parseReference
  let materialId ← getLong
  let surfaceShaderGuid ← getBytes16
  let surfaceShaderId ← getInt
  let textureParameters ← countedLoop parseTexture
  return { material, materialVariation, materialId, textureParameters, surfaceShaderGuid,
           surfaceShaderId }

def parseMeshEntry : BufM MeshVariationDatabaseMergeDataEntry := do
  let mesh ← parseReference
  let variationAssetNameHash ← getInt
  let materials ← countedLoop parseMaterial
  return { mesh, materials, variationAssetNameHash }

section

variable {δ : Type}

def networkRegistryHandler (derived : Derived NetworkRegistryMergeData δ) : CustomAssetHandler δ :=
  genericCustomAssetHandler derived .referencesResolved {} (ListMergeData.load parseReference)

def uiMetaDataHandler (derived : Derived UIMetaDataMergeData δ) : CustomAssetHandler δ :=
  genericCustomAssetHandler derived .referencesResolved {} (ListMergeData.load parseReference)

def profileOptionsHandler (derived : Derived ProfileOptionsMergeData δ) : CustomAssetHandler δ :=
  genericCustomAssetHandler derived .referencesResolved {} (ListMergeData.load parseReference)

def meshVariationHandler (derived : Derived MeshVariationMergeData δ) : CustomAssetHandler δ :=
  genericCustomAssetHandler derived .referencesResolved {} (ListMergeData.load parseMeshEntry)

end

/-! ## Modifying -/

structure Game (π A : Type) where
  domain : Domain π UInt64
  refCounts : RefCounts
  asset : A

section

variable {π : Type}

/-- `Objects` of a `NetworkRegistryAsset`, and so on. -/
abbrev AssetList := List (Option UInt64)

/-- `NetworkRegistryHandler::Modify`. A null pointer in the asset becomes the first pointer. -/
def NetworkRegistryMergeData.modify (clearRequired : Bool) (data : NetworkRegistryMergeData)
    (g : Game π AssetList) : Option (Bool × Game π AssetList) :=
  let objects :=
    if clearRequired then [] else g.asset.map fun object => object.or g.asset.head?.join
  some (true, { g with asset := objects ++ data.values.map (findDataContainer g.domain) })

/-- The loops of `UIMetaDataHandler::Modify` and `ProfileOptionsHandler::Modify`. There is no
`addRef` of a null pointer. -/
def addAssets (domain : Domain π UInt64) :
    List EbxImportReference → RefCounts → Option (RefCounts × AssetList)
  | [], counts => some (counts, [])
  | ref :: refs, counts => do
      let newAsset ← findDataContainer domain ref
      let rest ← addAssets domain refs (addRef counts newAsset)
      some (rest.1, some newAsset :: rest.2)

/-- The lines that these two handlers have in common. -/
def appendAssets (values : List EbxImportReference) (g : Game π AssetList) :
    Option (Bool × Game π AssetList) :=
  if g.asset.any Option.isNone then
    some (false, g)
  else
    (addAssets g.domain values g.refCounts).map fun added =>
      (true, { g with refCounts := added.1, asset := g.asset ++ added.2 })

/-- `UIMetaDataHandler::Modify`, which does not ask for `clearRequired`. -/
def UIMetaDataMergeData.modify (_clearRequired : Bool) (data : UIMetaDataMergeData)
    (g : Game π AssetList) : Option (Bool × Game π AssetList) :=
  appendAssets data.values g

/-- `ProfileOptionsHandler::Modify`. -/
def ProfileOptionsMergeData.modify (_clearRequired : Bool) (data : ProfileOptionsMergeData)
    (g : Game π AssetList) : Option (Bool × Game π AssetList) :=
  appendAssets data.values g

structure TextureShaderParameter where
  value : Option UInt64
  parameterName : ByteString
  deriving DecidableEq, Repr

structure MeshVariationDatabaseMaterial where
  material : Option UInt64
  materialVariation : Option UInt64
  surfaceShaderId : UInt32
  surfaceShaderGuid : Guid
  materialId : UInt64
  textureParameters : List TextureShaderParameter
  deriving DecidableEq

structure MeshVariationDatabaseEntry where
  mesh : Option UInt64
  variationAssetNameHash : UInt32
  materials : List MeshVariationDatabaseMaterial
  deriving DecidableEq

structure MeshVariationDatabase where
  entries : List MeshVariationDatabaseEntry
  redirectEntries : List UInt64
  deriving DecidableEq

/-- `addRef`, if the pointer is not null -/
def holdRef (counts : RefCounts) (container : Option UInt64) : RefCounts :=
  match container with
  | none => counts
  | some container => addRef counts container

/-- A loop whose rounds fill an array and count references. -/
def fillArray {β γ : Type} (f : RefCounts → β → RefCounts × γ) :
    List β → RefCounts → RefCounts × List γ
  | [], counts => (counts, [])
  | value :: values, counts =>
      let first := f counts value
      let rest := fillArray f values first.1
      (rest.1, first.2 :: rest.2)

variable (domain : Domain π UInt64)

def realTexture (counts : RefCounts) (texture : TextureShaderParameterMergeData) :
    RefCounts × TextureShaderParameter :=
  let value := findDataContainer domain texture.value
  (holdRef counts value, { value, parameterName := texture.parameterName })

def realMaterial (counts : RefCounts) (material : MeshVariationDatabaseMergeDataMaterial) :
    RefCounts × MeshVariationDatabaseMaterial :=
  let real := findDataContainer domain material.material
  let textures := fillArray (realTexture domain) material.textureParameters (holdRef counts real)
  (textures.1, {
    material := real
    materialVariation := findDataContainer domain material.materialVariation
    surfaceShaderId := material.surfaceShaderId
    surfaceShaderGuid := material.surfaceShaderGuid
    materialId := material.materialId
    textureParameters := textures.2 })

def realEntry (counts : RefCounts) (entry : MeshVariationDatabaseMergeDataEntry) :
    RefCounts × MeshVariationDatabaseEntry :=
  let mesh := findDataContainer domain entry.mesh
  let materials := fillArray (realMaterial domain) entry.materials (holdRef counts mesh)
  (materials.1, {
    mesh
    variationAssetNameHash := entry.variationAssetNameHash
    materials := materials.2 })

end

/-- `MeshVariationHandler::Modify`. -/
def MeshVariationMergeData.modify {π : Type} (clearRequired : Bool) (data : MeshVariationMergeData)
    (g : Game π MeshVariationDatabase) : Option (Bool × Game π MeshVariationDatabase) :=
  let db := if clearRequired then ⟨[], []⟩ else g.asset
  let added := fillArray (realEntry g.domain) data.values g.refCounts
  some (true, { g with
    refCounts := added.1
    asset := { db with entries := db.entries ++ added.2 } })

/-! ## `RunHandler` -/

/-- `Modify` of `GenericCustomAssetHandler<T>` -/
def genericModify {τ δ G : Type} (derived : Derived τ δ) (modify : τ → G → Option (Bool × G))
    (data : δ) (g : G) : Option (Bool × G) := do
  let data ← derived.dynamicCast data
  modify data g

/-- The loop that calls `Modify` until it returns true. There are so many updates in it that the
engine makes; without enough of them it has not ended. -/
def modifyLoop {G : Type} (modify : G → Option (Bool × G)) :
    List (G → G) → G → Option (Bool × List (G → G) × G)
  | [], g => (modify g).map fun r => (r.1, [], r.2)
  | update :: updates, g => do
      let r ← modify g
      if r.1 then
        some (true, update :: updates, r.2)
      else
        modifyLoop modify updates (update r.2)

/-- The loop over the handlers, with what each of them has loaded. -/
def modifyAll {δ G : Type} (modify : UInt32 → δ → G → Option (Bool × G)) :
    List (UInt32 × δ) → List (G → G) → G → Option (Bool × List (G → G) × G)
  | [], updates, g => some (true, updates, g)
  | (handlerHash, data) :: rest, updates, g => do
      let r ← modifyLoop (modify handlerHash data) updates g
      if r.1 then
        modifyAll modify rest r.2.1 r.2.2
      else
        some r

/-- The rest of `RunHandler`. The handlers are in the order of their hashes. -/
def runHandlers {δ G : Type} (handlers : UInt32 → Option (CustomAssetHandler δ))
    (modify : UInt32 → δ → G → Option (Bool × G)) (modResources : List ModResource)
    (name : ByteString) (loadStage : LoadStage) (updates : List (G → G)) (g : G) :
    Except Fault (Option (Bool × List (G → G) × G)) := do
  let handlerData ← runHandler handlers modResources name loadStage
  return modifyAll modify handlerData.toList updates g

end Kyber.ModLoader
