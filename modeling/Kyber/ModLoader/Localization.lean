import Kyber.ModLoader.DeferredHandlers
import Kyber.ModLoader.ModResource

/-!
# Merging with handlers (`ModLoader.cpp`, `CustomAssetHandler.h`, `LocalizationHandler.cpp`)

An asset with a handler is not replaced by the mods' versions of it: each mod has data
for the handler, and the handler merges them. `RunHandler` goes through the mods'
resources of the asset, from the lowest priority to the highest, and lets the handler
load the data of each into one object. What the handler then makes of the asset is left
out here: the model ends with the objects.

`δ` is `CustomAssetHandlerData`, the base class of what the handlers load into. The
handler of localized strings loads them into a map, by their hashes.
-/

namespace Kyber.ModLoader

open Kyber.Lib

/-! ## Handlers -/

structure CustomAssetHandler (δ : Type) where
  loadStage : LoadStage
  create : δ
  load : δ → BufM δ

/-- A class that is derived from `δ`. -/
structure Derived (τ δ : Type) where
  upcast : τ → δ
  dynamicCast : δ → Option τ
  dynamicCast_upcast : ∀ t, dynamicCast (upcast t) = some t

/-- `GenericCustomAssetHandler<T>`. -/
def genericCustomAssetHandler {τ δ : Type} (derived : Derived τ δ) (loadStage : LoadStage)
    (create : τ) (load : τ → BufM τ) : CustomAssetHandler δ where
  loadStage
  create := derived.upcast create
  load data :=
    match derived.dynamicCast data with
    | none => throw .outOfBounds
    | some data => return derived.upcast (← load data)

/-! ## Localized strings -/

/-- The payload of a `std::wstring`. -/
abbrev WideString := List UInt16

/-- The loop of `getNullTerminatedWideString`, for at most this many rounds. -/
def wideRounds : Nat → BufM WideString
  | 0 => throw .fuel
  | n + 1 => do
      let c ← getShort
      if c = 0 then
        return []
      else
        return c :: (← wideRounds n)

/-- Past the end of the buffer zeros are read, so there are not more rounds than bytes
and one. -/
def getNullTerminatedWideString : BufM WideString := do
  wideRounds ((← get).buf.length + 1)

structure LocalizationMergeData where
  strings : Std.TreeMap UInt32 WideString := {}

namespace LocalizationMergeData

/-- The loop of `Load`, for the strings that are left. -/
def loadStrings : Nat → LocalizationMergeData → BufM LocalizationMergeData
  | 0, data => return data
  | n + 1, data => do
      let hash ← getInt
      let str ← getNullTerminatedWideString
      loadStrings n { strings := data.strings.insert hash str }

def load (data : LocalizationMergeData) : BufM LocalizationMergeData := do
  let magic ← getInt
  let count ← if magic ≠ 0xABCD0001 then pure magic else getInt
  -- The count is an `int32_t`, and a negative one ends the loop at once.
  loadStrings (if count.toNat < 2 ^ 31 then count.toNat else 0) data

end LocalizationMergeData

/-- `LocalizationHandler`. -/
def localizationHandler {δ : Type} (derived : Derived LocalizationMergeData δ) :
    CustomAssetHandler δ :=
  genericCustomAssetHandler derived .postLoad {} LocalizationMergeData.load

/-! ## `RunHandler` -/

section

variable {δ : Type} (handlers : UInt32 → Option (CustomAssetHandler δ))

/-- The handler of a resource in `m_handlers`, whose keys are unsigned. -/
def ModResource.handler (r : ModResource) : UInt32 := r.handlerHash.toUInt32

/-- The resource is one of the asset's, and its handler is of this stage. A handler that
is not registered is a null pointer. -/
def ModResource.isHandled (name : ByteString) (loadStage : LoadStage) (r : ModResource) :
    Except Fault Bool :=
  if r.type ≠ .ebx ∨ r.name ≠ name then
    return false
  else if r.handlerHash = 0 then
    return false
  else
    match handlers r.handler with
    | none => throw .outOfBounds
    | some handler => return handler.loadStage = loadStage

/-- The first loop. -/
def handledResources (name : ByteString) (loadStage : LoadStage) :
    List ModResource → Except Fault (List ModResource)
  | [] => return []
  | r :: rs => do
      let handled ← r.isHandled handlers name loadStage
      let rest ← handledResources name loadStage rs
      return if handled then r :: rest else rest

/-- `handlerData[handlerHash] = m_handlers[handlerHash]->Create()`, for a handler that has
been found. -/
def createObject (handlerData : Std.TreeMap UInt32 δ) (handlerHash : UInt32) :
    Std.TreeMap UInt32 δ :=
  match handlers handlerHash with
  | none => handlerData
  | some handler => handlerData.insert handlerHash handler.create

/-- An object for each of `uniqueHandlers`. -/
def createData (resources : List ModResource) : Std.TreeMap UInt32 δ :=
  let uniqueHandlers := Std.TreeSet.ofList (resources.map ModResource.handler)
  uniqueHandlers.toList.foldl (createObject handlers) {}

/-- The data of one resource. The name of its type is read for the log. -/
def loadResource (handlerData : Std.TreeMap UInt32 δ) (r : ModResource) :
    Except Fault (Std.TreeMap UInt32 δ) := do
  let buf ← r.data.toByteBuffer
  match handlers r.handler, handlerData[r.handler]? with
  | some handler, some data => do
      let (_, buf) ← getNullTerminatedString.run buf
      let (data, _) ← (handler.load data).run buf
      return handlerData.insert r.handler data
  | _, _ => throw .outOfBounds

/-- `RunHandler`, up to the calls of `Modify`. -/
def runHandler (modResources : List ModResource) (name : ByteString) (loadStage : LoadStage) :
    Except Fault (Std.TreeMap UInt32 δ) := do
  let resources ← handledResources handlers name loadStage modResources
  resources.reverse.foldlM (loadResource handlers) (createData handlers resources)

/-- `RuntimeDatabaseDomainReadEbxPartitionFromStreamHk`: an asset is deferred if a resource with
a handler is remembered for it and the handler is registered. -/
def deferredResource (loader : FinalizedMods) (name : ByteString) :
    Option KyberHandledModResource :=
  match loader.handlerResources[name]? with
  | none => none
  | some resource =>
      match handlers resource.handlerHash.toUInt32 with
      | none => none
      | some _ => some resource

end

end Kyber.ModLoader
