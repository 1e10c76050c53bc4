import Kyber.ModLoader.ListHandlers
import Kyber.Proofs.TeamDataMods

/-!
# What mods add to lists

A mod's payload for a list is a count and the entries, and loading it puts the entries behind
those of the mods before. The whole of `RunHandler` then puts all of them behind what the asset
has, each once and in the order of the mods, however often `Modify` has to be called before no
pointer of the asset is null (`mods_append_assets`). Each entry that is added is counted as a
reference.

Mesh variations are nested, and what is counted is what their pointers to meshes, materials and
textures hold (`mods_append_meshes`).
-/

namespace Kyber.ModLoader

open Kyber.Lib Kyber.Sdk

/-! ## Loading -/

theorem countedLoop_reads {β : Type} {parse : BufM β} {bytes : β → List UInt8} (xs : Counted β)
    (h : ∀ x ∈ xs.val, Reads parse (bytes x) x) :
    Reads (countedLoop parse) (vectorBytes bytes xs) xs.val := by
  intro F
  have hlen : xs.val.length < 2 ^ 32 := Nat.lt_trans xs.property (by decide)
  have hcount : (UInt32.ofNat xs.val.length).toNat = xs.val.length :=
    UInt32.toNat_ofNat_of_lt' hlen
  have hreads := getInt_reads (UInt32.ofNat xs.val.length) F
  rw [hcount] at hreads
  refine hreads.bind ?_
  rw [hcount, if_pos xs.property]
  exact repeatM_reads xs.val fun x hx => h x hx F

namespace ListMergeData

variable {β : Type} {parse : BufM β} {bytes : β → List UInt8}

/-- What is loaded is put behind what is there. -/
theorem load_reads (data : ListMergeData β) (xs : Counted β)
    (h : ∀ x ∈ xs.val, Reads parse (bytes x) x) :
    Reads (load parse data) (vectorBytes bytes xs) ⟨data.values ++ xs.val⟩ :=
  (countedLoop_reads xs h).map fun values => mk (data.values ++ values)

end ListMergeData

/-- The resource has these bytes for the handler, behind the name of the asset's type. -/
structure CarriesBytes (hash : UInt32) (r : ModResource) (bytes : List UInt8) : Prop where
  handler : r.handler = hash
  data : ∃ typeName buffer, 0 ∉ typeName ∧ r.data.buffer = some buffer ∧
    buffer.take r.data.size.toUInt32.toNat = typeName ++ [0] ++ bytes

section

variable {τ δ : Type} {derived : Derived τ δ} {handlers : UInt32 → Option (CustomAssetHandler δ)}
  {hash : UInt32} {stage : LoadStage} {create : τ} {load : τ → BufM τ}
  {handlerData : Std.TreeMap UInt32 δ} {data data' : τ} {bytes : List UInt8}

/-- One round of the loop. -/
theorem loadResource_of_reads
    (hhandler : handlers hash = some (genericCustomAssetHandler derived stage create load))
    {r : ModResource} (h : CarriesBytes hash r bytes) (hload : Reads (load data) bytes data')
    (hdata : handlerData[hash]? = some (derived.upcast data)) :
    loadResource handlers handlerData r = .ok (handlerData.insert hash (derived.upcast data')) := by
  obtain ⟨rfl, typeName, buffer, hname, hbuffer, htake⟩ := h
  have hbuf : r.data.toByteBuffer = .ok (.ofBytes (typeName ++ [0] ++ bytes)) := by
    rw [ModResourceData.toByteBuffer, hbuffer]
    dsimp only
    rw [htake]
    rfl
  have hread := getNullTerminatedString_reads hname _ (.ofBytes (typeName ++ [0] ++ bytes))
    bytes rfl rfl
  have hrest : ((ByteBuffer.ofBytes (typeName ++ [0] ++ bytes)).skip
      (typeName ++ [0]).length).rest = bytes := ByteBuffer.rest_skip rfl
  have hloaded := hload _ _ [] rfl (hrest.trans (List.append_nil _).symm)
  have hobject : ∀ {s s'}, load data s = .ok (data', s') →
      (genericCustomAssetHandler derived stage create load).load (derived.upcast data) s =
        .ok (derived.upcast data', s') := by
    intro s s' hs
    rw [genericCustomAssetHandler]
    simp only [derived.dynamicCast_upcast]
    rw [BufM.bind_ok hs]
    rfl
  simp only [loadResource, StateT.run, hbuf, hhandler, hdata, except_ok_bind, hread,
    hobject hloaded]
  rfl

/-- All rounds, where each of the payloads does what `f` says. -/
theorem loadResources_of_reads {P : Type} {f : τ → P → τ} {bytesOf : P → List UInt8}
    (hhandler : handlers hash = some (genericCustomAssetHandler derived stage create load))
    {resources : List ModResource} {payloads : List P}
    (h : List.Forall₂ (fun r p => CarriesBytes hash r (bytesOf p)) resources payloads)
    (hload : ∀ p ∈ payloads, ∀ data, Reads (load data) (bytesOf p) (f data p))
    (hdata : handlerData[hash]? = some (derived.upcast data)) :
    ∃ handlerData', resources.foldlM (loadResource handlers) handlerData = .ok handlerData' ∧
      ∀ hash', handlerData'[hash']? =
        if hash' = hash then some (derived.upcast (payloads.foldl f data))
        else handlerData[hash']? := by
  induction h generalizing handlerData data with
  | nil =>
      refine ⟨handlerData, rfl, fun hash' => ?_⟩
      split
      · next heq => rw [heq, hdata, List.foldl_nil]
      · rfl
  | @cons r p resources payloads hr _ ih =>
      have hround := loadResource_of_reads hhandler hr (hload p List.mem_cons_self data) hdata
      have hnew : (handlerData.insert hash (derived.upcast (f data p)))[hash]? =
          some (derived.upcast (f data p)) := by rw [getElem?_insert_eq, if_pos rfl]
      obtain ⟨handlerData', hrest, hget⟩ := ih (fun p hp => hload p (List.mem_cons_of_mem _ hp)) hnew
      refine ⟨handlerData', ?_, fun hash' => ?_⟩
      · rw [List.foldlM_cons, hround, except_ok_bind, hrest]
      · rw [hget, List.foldl_cons]
        split
        · rfl
        · next hne => rw [getElem?_insert_eq, if_neg hne]

/-- The handler of all of an asset's resources has loaded all of their payloads, and there is no
other. -/
theorem toList_runHandler {P : Type} {f : τ → P → τ} {bytesOf : P → List UInt8}
    (hhandler : handlers hash = some (genericCustomAssetHandler derived stage create load))
    {name : ByteString} {modResources : List ModResource} {payloads : List P} (hne : payloads ≠ [])
    (h : List.Forall₂ (fun r p => CarriesBytes hash r (bytesOf p))
      (modResources.filter (·.merges name)).reverse payloads)
    (hload : ∀ p ∈ payloads, ∀ data, Reads (load data) (bytesOf p) (f data p)) :
    ∃ handlerData, runHandler handlers modResources name stage = .ok handlerData ∧
      handlerData.toList = [(hash, derived.upcast (payloads.foldl f create))] := by
  let resources := modResources.filter (·.merges name)
  have hhash : ∀ r ∈ resources, r.handler = hash := by
    intro r hr
    have hall := (List.forall₂_and_left (p := fun r => r.handler = hash) _ _).mp
      (h.imp fun r p hcarries => And.intro hcarries.handler hcarries)
    exact hall.1 r (List.mem_reverse.mpr hr)
  have hfound : ∀ r ∈ modResources, r.merges name →
      handlers r.handler = some (genericCustomAssetHandler derived stage create load) := by
    intro r hr hmerges
    rw [hhash r (List.mem_filter.mpr ⟨hr, hmerges⟩), hhandler]
  have hhandled : handledResources handlers name stage modResources = .ok resources := by
    refine (handledResources_eq_ok_iff handlers name stage).mpr
      ⟨fun r hr hmerges => by rw [hfound r hr hmerges, Option.isSome_some], ?_⟩
    refine List.filter_congr fun r hr => ?_
    cases hmerges : r.merges name with
    | false => rfl
    | true =>
        rw [ModResource.isAt, hfound r hr hmerges]
        exact (decide_eq_true rfl).symm
  have hsome : ∃ r, r ∈ resources := by
    refine List.exists_mem_of_ne_nil _ fun hnil => hne ?_
    rw [show modResources.filter (·.merges name) = [] from hnil] at h
    exact List.forall₂_nil_left_iff.mp h
  have hcreated : ∀ hash', (createData handlers resources)[hash']? =
      if hash' = hash then some (derived.upcast create) else none := by
    intro hash'
    obtain ⟨r, hr⟩ := hsome
    have hmem : hash' ∈ resources.map ModResource.handler ↔ hash' = hash := by
      constructor
      · intro hmem
        obtain ⟨r', hr', rfl⟩ := List.mem_map.mp hmem
        exact hhash r' hr'
      · intro heq
        rw [heq, ← hhash r hr]
        exact List.mem_map_of_mem hr
    rw [createData_get, if_congr hmem rfl rfl]
    split
    · next heq =>
        rw [heq, hhandler]
        rfl
    · rfl
  obtain ⟨handlerData, hrun, hget⟩ := loadResources_of_reads hhandler h hload
    ((hcreated hash).trans (if_pos rfl))
  refine ⟨handlerData, ?_, toList_eq_singleton fun hash' => ?_⟩
  · rw [runHandler, hhandled, except_ok_bind]
    exact hrun
  · rw [hget]
    split
    · rfl
    · next hne => rw [hcreated, if_neg hne]

end

/-! ## Calling `Modify` until it returns true -/

section

variable {G : Type} {modify : G → Option (Bool × G)} {ready : G → Bool} {finish : G → Option G}

/-- The game after updates. -/
def updated (updates : List (G → G)) (g : G) : G := updates.foldl (fun g update => update g) g

/-- `Modify` does its work in a game that is ready for it, and leaves another one alone. -/
def Awaits (modify : G → Option (Bool × G)) (ready : G → Bool) (finish : G → Option G) : Prop :=
  ∀ g, modify g = if ready g then (finish g).map fun g' => (true, g') else some (false, g)

/-- The game is ready after these updates and not before. -/
def FirstReady (ready : G → Bool) (g : G) (updates : List (G → G)) : Prop :=
  ready (updated updates g) = true ∧
    ∀ p, p <+: updates → p ≠ updates → ready (updated p g) = false

theorem FirstReady.tail {g : G} {update : G → G} {updates : List (G → G)}
    (h : FirstReady ready g (update :: updates)) : FirstReady ready (update g) updates := by
  refine ⟨h.1, fun p hp hne => ?_⟩
  refine h.2 (update :: p) (List.cons_prefix_cons.mpr ⟨rfl, hp⟩) ?_
  intro heq
  exact hne (List.cons.inj heq).2

theorem modifyLoop_of_ready (h : Awaits modify ready finish) {g : G} (hready : ready g = true)
    (updates : List (G → G)) :
    modifyLoop modify updates g = (finish g).map fun g' => (true, updates, g') := by
  have hmodify := h g
  rw [if_pos hready] at hmodify
  cases updates with
  | nil =>
      rw [modifyLoop, hmodify]
      cases finish g <;> rfl
  | cons update updates =>
      rw [modifyLoop, hmodify]
      cases finish g <;> rfl

theorem modifyLoop_of_firstReady (h : Awaits modify ready finish) {g : G}
    {before : List (G → G)} (hready : FirstReady ready g before) (rest : List (G → G)) :
    modifyLoop modify (before ++ rest) g =
      (finish (updated before g)).map fun g' => (true, rest, g') := by
  induction before generalizing g with
  | nil => exact modifyLoop_of_ready h hready.1 rest
  | cons update before ih =>
      have hnow : ready g = false := hready.2 [] List.nil_prefix (List.cons_ne_nil _ _).symm
      have hmodify := h g
      rw [hnow, if_neg Bool.false_ne_true] at hmodify
      rw [List.cons_append, modifyLoop, hmodify]
      exact ih hready.tail

theorem modifyLoop_of_never (h : Awaits modify ready finish) {g : G} {updates : List (G → G)}
    (hnever : ∀ p, p <+: updates → ready (updated p g) = false) :
    modifyLoop modify updates g = some (false, [], updated updates g) := by
  induction updates generalizing g with
  | nil =>
      have hnow : ready g = false := hnever [] List.nil_prefix
      rw [modifyLoop, h g, hnow, if_neg Bool.false_ne_true]
      rfl
  | cons update updates ih =>
      have hnow : ready g = false := hnever [] List.nil_prefix
      have hmodify := h g
      rw [hnow, if_neg Bool.false_ne_true] at hmodify
      rw [modifyLoop, hmodify]
      exact ih fun p hp => hnever (update :: p) (List.cons_prefix_cons.mpr ⟨rfl, hp⟩)

end

/-! ## References -/

/-- A reference to each of the containers is added. -/
def addRefs (counts : RefCounts) (containers : List UInt64) : RefCounts :=
  containers.foldl addRef counts

theorem addRefs_apply (counts : RefCounts) (containers : List UInt64) (c : UInt64) :
    addRefs counts containers c = counts c + UInt32.ofNat (containers.count c) := by
  induction containers generalizing counts with
  | nil => exact (UInt32.add_zero _).symm
  | cons container containers ih =>
      rw [addRefs, List.foldl_cons, ← addRefs, ih, addRef, List.count_cons]
      by_cases hc : c = container
      · subst hc
        rw [Function.update_self, beq_self_eq_true, if_pos rfl, UInt32.ofNat_add, UInt32.add_assoc]
        congr 1
        rw [UInt32.add_comm]
        rfl
      · rw [Function.update_of_ne hc, if_neg (by simpa using Ne.symm hc), Nat.add_zero]

theorem addRefs_append (counts : RefCounts) (l₁ l₂ : List UInt64) :
    addRefs counts (l₁ ++ l₂) = addRefs (addRefs counts l₁) l₂ := List.foldl_append

theorem holdRef_eq (counts : RefCounts) (container : Option UInt64) :
    holdRef counts container = addRefs counts container.toList := by
  cases container with
  | none => rfl
  | some container => rfl

section

variable {π β γ : Type} {domain : Domain π UInt64}

theorem addAssets_eq (refs : List EbxImportReference) (counts : RefCounts) :
    addAssets domain refs counts = (refs.mapM (findDataContainer domain)).map fun added =>
      (addRefs counts added, added.map some) := by
  induction refs generalizing counts with
  | nil => rfl
  | cons ref refs ih =>
      rw [addAssets, List.mapM_cons]
      cases findDataContainer domain ref with
      | none => rfl
      | some newAsset =>
          simp only [Option.bind_eq_bind, Option.bind_some, ih]
          cases refs.mapM (findDataContainer domain) with
          | none => rfl
          | some added => rfl

/-- A round makes something that does not depend on the counts, and counts what it holds. -/
theorem fillArray_eq {f : RefCounts → β → RefCounts × γ} {make : β → γ} (held : γ → List UInt64)
    (h : ∀ counts value, f counts value = (addRefs counts (held (make value)), make value))
    (values : List β) (counts : RefCounts) :
    fillArray f values counts =
      (addRefs counts ((values.map make).flatMap held), values.map make) := by
  induction values generalizing counts with
  | nil => rfl
  | cons value values ih =>
      rw [fillArray, h, ih, List.map_cons, List.flatMap_cons, addRefs_append]

end

/-! ## All of `RunHandler` -/

theorem modifyAll_singleton {δ G : Type} (modify : UInt32 → δ → G → Option (Bool × G))
    (hash : UInt32) (data : δ) (updates : List (G → G)) (g : G) :
    modifyAll modify [(hash, data)] updates g = modifyLoop (modify hash data) updates g := by
  rw [modifyAll]
  cases modifyLoop (modify hash data) updates g with
  | none => rfl
  | some r =>
      obtain ⟨ended, rest, g'⟩ := r
      cases ended
      · rfl
      · rfl

theorem foldl_values {β : Type} (payloads : List (Counted β)) (data : ListMergeData β) :
    payloads.foldl (fun data p => ⟨data.values ++ p.val⟩) data =
      ⟨data.values ++ payloads.flatMap Subtype.val⟩ := by
  induction payloads generalizing data with
  | nil =>
      rw [List.flatMap_nil, List.append_nil]
      rfl
  | cons p payloads ih => rw [List.foldl_cons, ih, List.flatMap_cons, List.append_assoc]

section

variable {δ β G : Type} {derived : Derived (ListMergeData β) δ}
  {handlers : UInt32 → Option (CustomAssetHandler δ)} {hash : UInt32} {parse : BufM β}
  {bytes : β → List UInt8} {name : ByteString} {modResources : List ModResource}
  {payloads : List (Counted β)} {modify : UInt32 → δ → G → Option (Bool × G)}
  {modifyList : ListMergeData β → G → Option (Bool × G)}

/-- `Modify` is called with the entries of all mods, those of the lowest priority first. -/
theorem runHandlers_list
    (hhandler : handlers hash = some (genericCustomAssetHandler derived .referencesResolved {}
      (ListMergeData.load parse)))
    (hmodify : modify hash = genericModify derived modifyList)
    (hparse : ∀ p ∈ payloads, ∀ x ∈ p.val, Reads parse (bytes x) x) (hne : payloads ≠ [])
    (h : List.Forall₂ (fun r p => CarriesBytes hash r (vectorBytes bytes p))
      (modResources.filter (·.merges name)).reverse payloads) (updates : List (G → G)) (g : G) :
    runHandlers handlers modify modResources name .referencesResolved updates g =
      .ok (modifyLoop (modifyList ⟨payloads.flatMap Subtype.val⟩) updates g) := by
  obtain ⟨handlerData, hrun, hdata⟩ := toList_runHandler hhandler hne h
    fun p hp data => data.load_reads p (hparse p hp)
  have hmodified : genericModify derived modifyList
      (derived.upcast ⟨payloads.flatMap Subtype.val⟩) =
        modifyList ⟨payloads.flatMap Subtype.val⟩ := by
    funext g
    rw [genericModify, derived.dynamicCast_upcast]
    rfl
  rw [foldl_values, List.nil_append] at hdata
  rw [runHandlers, hrun, except_ok_bind, hdata, modifyAll_singleton, hmodify, hmodified]
  rfl

end

/-! ## Lists of assets -/

section

variable {π δ : Type} {derived : Derived (ListMergeData EbxImportReference) δ}
  {handlers : UInt32 → Option (CustomAssetHandler δ)}
  {modify : UInt32 → δ → Game π AssetList → Option (Bool × Game π AssetList)} {hash : UInt32}
  {clearRequired : Bool}

/-- The handler is that of the data of menus, or of profile options. -/
inductive IsAssetList (derived : Derived (ListMergeData EbxImportReference) δ)
    (handlers : UInt32 → Option (CustomAssetHandler δ))
    (modify : UInt32 → δ → Game π AssetList → Option (Bool × Game π AssetList)) (hash : UInt32)
    (clearRequired : Bool) : Prop
  | uiMetaData (hhandler : handlers hash = some (uiMetaDataHandler derived))
      (hmodify : modify hash = genericModify derived (UIMetaDataMergeData.modify clearRequired))
  | profileOptions (hhandler : handlers hash = some (profileOptionsHandler derived))
      (hmodify : modify hash = genericModify derived (ProfileOptionsMergeData.modify clearRequired))

/-- No pointer of the asset is null. -/
def Game.complete (g : Game π AssetList) : Bool := !g.asset.any Option.isNone

/-- The containers are behind those of the asset, and counted. -/
def Game.append (g : Game π AssetList) (added : List UInt64) : Game π AssetList :=
  { g with refCounts := addRefs g.refCounts added, asset := g.asset ++ added.map some }

theorem appendAssets_awaits (values : List EbxImportReference) :
    Awaits (G := Game π AssetList) (appendAssets values) Game.complete fun g =>
      (values.mapM (findDataContainer g.domain)).map g.append := by
  intro g
  rw [appendAssets, Game.complete, addAssets_eq]
  cases hnull : g.asset.any Option.isNone with
  | true => rfl
  | false =>
      rw [if_neg Bool.false_ne_true, Bool.not_false, if_pos rfl, Option.map_map, Option.map_map]
      rfl

variable {name : ByteString} {modResources : List ModResource}
  {payloads : List (Counted EbxImportReference)}

/-- The updates go on until no pointer of the asset is null, and nothing is added before. Then all
that the mods bring is added at once, and if something of it is not found there is no result. -/
theorem mods_append_assets (hlist : IsAssetList derived handlers modify hash clearRequired)
    (hne : payloads ≠ [])
    (h : List.Forall₂ (fun r p => CarriesBytes hash r (vectorBytes EbxImportReference.bytes p))
      (modResources.filter (·.merges name)).reverse payloads) (g : Game π AssetList) :
    (∀ before rest, FirstReady Game.complete g before →
      runHandlers handlers modify modResources name .referencesResolved (before ++ rest) g =
        .ok (((payloads.flatMap Subtype.val).mapM
          (findDataContainer (updated before g).domain)).map fun added =>
            (true, rest, (updated before g).append added))) ∧
      ∀ updates, (∀ p, p <+: updates → Game.complete (updated p g) = false) →
        runHandlers handlers modify modResources name .referencesResolved updates g =
          .ok (some (false, [], updated updates g)) := by
  have hparse : ∀ p ∈ payloads, ∀ ref ∈ p.val,
      Reads parseReference (EbxImportReference.bytes ref) ref :=
    fun _ _ ref _ => parseReference_reads ref
  have hrun : ∀ updates, runHandlers handlers modify modResources name .referencesResolved
      updates g = .ok (modifyLoop (appendAssets (payloads.flatMap Subtype.val)) updates g) := by
    intro updates
    cases hlist with
    | uiMetaData hhandler hmodify =>
        exact runHandlers_list hhandler hmodify hparse hne h updates g
    | profileOptions hhandler hmodify =>
        exact runHandlers_list hhandler hmodify hparse hne h updates g
  constructor
  · intro before rest hready
    rw [hrun, modifyLoop_of_firstReady (appendAssets_awaits _) hready rest, Option.map_map]
    rfl
  · intro updates hnever
    rw [hrun, modifyLoop_of_never (appendAssets_awaits _) hnever]

end

/-! Two mods add menus while the asset has a null pointer, which the first update resolves. -/

def bytesResource (bytes : List UInt8) : ModResource where
  type := .ebx
  name := []
  bundles := []
  handlerHash := 1
  resourceIndex := 0
  dupedWithHandler := false
  data := {
    size := UInt64.ofNat (bytes.length + 1)
    originalSize := 0
    buffer := some ([0] ++ bytes)
    fbFile := 0
    dataOffset := 0
    resType := 0
    resRid := 0
    resMeta := .replicate 16 0
    rangeStart := 0
    rangeEnd := 0
    logicalOffset := 0
    logicalSize := 0
    h32 := 0
    firstMip := 0 }
  uniqueIdWithType := 0

theorem bytesResource_carries {bytes : List UInt8} (hlen : bytes.length + 1 < 2 ^ 32) :
    CarriesBytes 1 (bytesResource bytes) bytes := by
  refine ⟨rfl, [], [0] ++ bytes, List.not_mem_nil, rfl, List.take_of_length_le ?_⟩
  have hsize : (UInt64.ofNat (bytes.length + 1)).toUInt32.toNat = bytes.length + 1 := by
    rw [UInt64.toNat_toUInt32, UInt64.toNat_ofNat_of_lt' (Nat.lt_trans hlen (by decide)),
      Nat.mod_eq_of_lt hlen]
  show ([0] ++ bytes).length ≤ (UInt64.ofNat (bytes.length + 1)).toUInt32.toNat
  rw [hsize, List.length_append, List.length_singleton, Nat.add_comm]

def sampleGuid (byte : UInt8) : Guid := Vector.replicate 16 byte

def reference (byte : UInt8) : EbxImportReference := ⟨sampleGuid 1, sampleGuid byte⟩

def lowMenus : Counted EbxImportReference := ⟨[reference 96], by decide⟩

def highMenus : Counted EbxImportReference := ⟨[reference 128, reference 96], by decide⟩

/-- There is one partition, with an instance for every byte. -/
def oneDomain : Domain Unit UInt64 :=
  ⟨fun _ => some (), fun _ => none, fun _ guid => some (guid.toList.headD 0).toUInt64⟩

def menuGame : Game Unit AssetList := ⟨oneDomain, fun _ => 1, [none]⟩

def resolveMenus (g : Game Unit AssetList) : Game Unit AssetList := { g with asset := [some 64] }

def listDerived : Derived (ListMergeData EbxImportReference) (ListMergeData EbxImportReference) :=
  ⟨id, some, fun _ => rfl⟩

theorem menuGame_firstReady : FirstReady Game.complete menuGame [resolveMenus] := by
  refine ⟨rfl, fun p hp hne => ?_⟩
  cases p with
  | nil => rfl
  | cons update p =>
      obtain ⟨rfl, hnil⟩ := List.cons_prefix_cons.mp hp
      exact absurd (by rw [List.prefix_nil.mp hnil]) hne

theorem menus_appended :
    runHandlers (fun _ => some (uiMetaDataHandler listDerived))
        (fun _ => genericModify listDerived (UIMetaDataMergeData.modify false))
        [bytesResource (vectorBytes EbxImportReference.bytes highMenus),
          bytesResource (vectorBytes EbxImportReference.bytes lowMenus)] [] .referencesResolved
        [resolveMenus] menuGame =
      .ok (some (true, [], ⟨oneDomain, addRefs (fun _ => 1) [96, 128, 96],
        [some 64, some 96, some 128, some 96]⟩)) := by
  have hcarries : List.Forall₂
      (fun r p => CarriesBytes 1 r (vectorBytes EbxImportReference.bytes p))
      (([bytesResource (vectorBytes EbxImportReference.bytes highMenus),
        bytesResource (vectorBytes EbxImportReference.bytes lowMenus)]).filter
          (·.merges [])).reverse [lowMenus, highMenus] :=
    .cons (bytesResource_carries (by decide)) (.cons (bytesResource_carries (by decide)) .nil)
  exact (mods_append_assets (.uiMetaData rfl rfl : IsAssetList listDerived _ _ 1 false)
    (List.cons_ne_nil _ _) hcarries menuGame).1 [resolveMenus] [] menuGame_firstReady

/-! ## Network registries -/

/-- The asset's pointers, with the first of them where one is null. -/
def repaired (objects : AssetList) : AssetList :=
  objects.map fun object => object.or objects.head?.join

/-- A registry is modified at once, and what is not found is a null pointer in it. -/
theorem mods_append_objects {π δ : Type} {derived : Derived NetworkRegistryMergeData δ}
    {handlers : UInt32 → Option (CustomAssetHandler δ)} {hash : UInt32} {clearRequired : Bool}
    {modify : UInt32 → δ → Game π AssetList → Option (Bool × Game π AssetList)}
    (hhandler : handlers hash = some (networkRegistryHandler derived))
    (hmodify : modify hash = genericModify derived (NetworkRegistryMergeData.modify clearRequired))
    {name : ByteString} {modResources : List ModResource}
    {payloads : List (Counted EbxImportReference)} (hne : payloads ≠ [])
    (h : List.Forall₂ (fun r p => CarriesBytes hash r (vectorBytes EbxImportReference.bytes p))
      (modResources.filter (·.merges name)).reverse payloads)
    (updates : List (Game π AssetList → Game π AssetList)) (g : Game π AssetList) :
    runHandlers handlers modify modResources name .referencesResolved updates g =
      .ok (some (true, updates, { g with asset := (if clearRequired then [] else repaired g.asset) ++
        (payloads.flatMap Subtype.val).map (findDataContainer g.domain) })) := by
  have hawaits : Awaits (G := Game π AssetList)
      (NetworkRegistryMergeData.modify clearRequired ⟨payloads.flatMap Subtype.val⟩)
      (fun _ => true) fun g =>
        (NetworkRegistryMergeData.modify clearRequired ⟨payloads.flatMap Subtype.val⟩ g).map
          Prod.snd := fun g => rfl
  have hrun := runHandlers_list hhandler hmodify (fun _ _ ref _ => parseReference_reads ref) hne h
    updates g
  rw [modifyLoop_of_ready hawaits rfl] at hrun
  exact hrun

/-! ## Mesh variations -/

namespace TextureShaderParameterMergeData

def bytes (texture : TextureShaderParameterMergeData) : List UInt8 :=
  texture.value.bytes ++ (texture.parameterName ++ [0])

theorem reads {texture : TextureShaderParameterMergeData} (h : 0 ∉ texture.parameterName) :
    Reads parseTexture texture.bytes texture :=
  (parseReference_reads _).bind ((getNullTerminatedString_reads h).map _)

end TextureShaderParameterMergeData

namespace MeshVariationDatabaseMergeDataMaterial

/-- The counts are those of the loops that read it, and names end with the first zero. -/
structure Writable (material : MeshVariationDatabaseMergeDataMaterial) : Prop where
  length_lt : material.textureParameters.length < 2 ^ 31
  names : ∀ texture ∈ material.textureParameters, 0 ∉ texture.parameterName

instance (material : MeshVariationDatabaseMergeDataMaterial) : Decidable material.Writable :=
  decidable_of_iff (_ ∧ _) ⟨fun h => ⟨h.1, h.2⟩, fun h => ⟨h.length_lt, h.names⟩⟩

def bytes (material : MeshVariationDatabaseMergeDataMaterial) : List UInt8 :=
  material.material.bytes ++ (material.materialVariation.bytes ++
    (leBytes 8 material.materialId.toNat ++ (material.surfaceShaderGuid.toList ++
      (leBytes 4 material.surfaceShaderId.toNat ++
        (leBytes 4 material.textureParameters.length ++
          material.textureParameters.flatMap TextureShaderParameterMergeData.bytes)))))

theorem reads {material : MeshVariationDatabaseMergeDataMaterial} (h : material.Writable) :
    Reads parseMaterial material.bytes material := by
  have htextures : Reads (countedLoop parseTexture) _ _ :=
    countedLoop_reads ⟨material.textureParameters, h.length_lt⟩
      fun texture htexture => TextureShaderParameterMergeData.reads (h.names texture htexture)
  exact (parseReference_reads _).bind ((parseReference_reads _).bind ((getLong_reads _).bind
    ((getBytes16_reads _).bind ((getInt_reads _).bind (htextures.map _)))))

end MeshVariationDatabaseMergeDataMaterial

namespace MeshVariationDatabaseMergeDataEntry

structure Writable (entry : MeshVariationDatabaseMergeDataEntry) : Prop where
  length_lt : entry.materials.length < 2 ^ 31
  materials : ∀ material ∈ entry.materials, material.Writable

instance (entry : MeshVariationDatabaseMergeDataEntry) : Decidable entry.Writable :=
  decidable_of_iff (_ ∧ _) ⟨fun h => ⟨h.1, h.2⟩, fun h => ⟨h.length_lt, h.materials⟩⟩

def bytes (entry : MeshVariationDatabaseMergeDataEntry) : List UInt8 :=
  entry.mesh.bytes ++ (leBytes 4 entry.variationAssetNameHash.toNat ++
    (leBytes 4 entry.materials.length ++
      entry.materials.flatMap MeshVariationDatabaseMergeDataMaterial.bytes))

theorem reads {entry : MeshVariationDatabaseMergeDataEntry} (h : entry.Writable) :
    Reads parseMeshEntry entry.bytes entry := by
  have hmaterials : Reads (countedLoop parseMaterial) _ _ :=
    countedLoop_reads ⟨entry.materials, h.length_lt⟩
      fun material hmaterial => MeshVariationDatabaseMergeDataMaterial.reads
        (h.materials material hmaterial)
  exact (parseReference_reads _).bind ((getInt_reads _).bind (hmaterials.map _))

end MeshVariationDatabaseMergeDataEntry

section

variable {π : Type} (domain : Domain π UInt64)

/-- What becomes of a reference to a texture, a material, a mesh. -/
def resolveTexture (texture : TextureShaderParameterMergeData) : TextureShaderParameter where
  value := findDataContainer domain texture.value
  parameterName := texture.parameterName

def resolveMaterial (material : MeshVariationDatabaseMergeDataMaterial) :
    MeshVariationDatabaseMaterial where
  material := findDataContainer domain material.material
  materialVariation := findDataContainer domain material.materialVariation
  surfaceShaderId := material.surfaceShaderId
  surfaceShaderGuid := material.surfaceShaderGuid
  materialId := material.materialId
  textureParameters := material.textureParameters.map (resolveTexture domain)

def resolveEntry (entry : MeshVariationDatabaseMergeDataEntry) : MeshVariationDatabaseEntry where
  mesh := findDataContainer domain entry.mesh
  variationAssetNameHash := entry.variationAssetNameHash
  materials := entry.materials.map (resolveMaterial domain)

end

/-- The pointers of a material that are counted: the one to a variation is not. -/
def MeshVariationDatabaseMaterial.held (material : MeshVariationDatabaseMaterial) : List UInt64 :=
  material.material.toList ++ material.textureParameters.flatMap (·.value.toList)

def MeshVariationDatabaseEntry.held (entry : MeshVariationDatabaseEntry) : List UInt64 :=
  entry.mesh.toList ++ entry.materials.flatMap (·.held)

section

variable {π : Type} {domain : Domain π UInt64}

theorem realTexture_eq (counts : RefCounts) (texture : TextureShaderParameterMergeData) :
    realTexture domain counts texture =
      (addRefs counts (resolveTexture domain texture).value.toList,
        resolveTexture domain texture) := by
  rw [realTexture, holdRef_eq]
  rfl

theorem realMaterial_eq (counts : RefCounts) (material : MeshVariationDatabaseMergeDataMaterial) :
    realMaterial domain counts material =
      (addRefs counts (resolveMaterial domain material).held, resolveMaterial domain material) := by
  rw [realMaterial, fillArray_eq (fun texture => texture.value.toList) realTexture_eq,
    holdRef_eq, ← addRefs_append]
  rfl

theorem realEntry_eq (counts : RefCounts) (entry : MeshVariationDatabaseMergeDataEntry) :
    realEntry domain counts entry =
      (addRefs counts (resolveEntry domain entry).held, resolveEntry domain entry) := by
  rw [realEntry, fillArray_eq MeshVariationDatabaseMaterial.held realMaterial_eq,
    holdRef_eq, ← addRefs_append]
  rfl

end

/-- The entries of all mods are behind those of the database, or are all that there is if it is to
be cleared. Each container is counted as often as the new entries hold it. -/
theorem mods_append_meshes {π δ : Type} {derived : Derived MeshVariationMergeData δ}
    {handlers : UInt32 → Option (CustomAssetHandler δ)} {hash : UInt32} {clearRequired : Bool}
    {modify : UInt32 → δ → Game π MeshVariationDatabase → Option (Bool × Game π MeshVariationDatabase)}
    (hhandler : handlers hash = some (meshVariationHandler derived))
    (hmodify : modify hash = genericModify derived (MeshVariationMergeData.modify clearRequired))
    {name : ByteString} {modResources : List ModResource}
    {payloads : List (Counted MeshVariationDatabaseMergeDataEntry)} (hne : payloads ≠ [])
    (hwritable : ∀ p ∈ payloads, ∀ entry ∈ p.val, entry.Writable)
    (h : List.Forall₂ (fun r p => CarriesBytes hash r
        (vectorBytes MeshVariationDatabaseMergeDataEntry.bytes p))
      (modResources.filter (·.merges name)).reverse payloads)
    (updates : List (Game π MeshVariationDatabase → Game π MeshVariationDatabase))
    (g : Game π MeshVariationDatabase) :
    ∃ g', runHandlers handlers modify modResources name .referencesResolved updates g =
        .ok (some (true, updates, g')) ∧
      g'.domain = g.domain ∧
      g'.asset = ⟨(if clearRequired then [] else g.asset.entries) ++
        (payloads.flatMap Subtype.val).map (resolveEntry g.domain),
          if clearRequired then [] else g.asset.redirectEntries⟩ ∧
      ∀ c, g'.refCounts c = g.refCounts c + UInt32.ofNat
        ((((payloads.flatMap Subtype.val).map (resolveEntry g.domain)).flatMap (·.held)).count c) := by
  have hrun := runHandlers_list hhandler hmodify
    (fun p hp entry hentry => MeshVariationDatabaseMergeDataEntry.reads (hwritable p hp entry hentry))
    hne h updates g
  have hawaits : Awaits (G := Game π MeshVariationDatabase)
      (MeshVariationMergeData.modify clearRequired ⟨payloads.flatMap Subtype.val⟩)
      (fun _ => true) fun g =>
        (MeshVariationMergeData.modify clearRequired ⟨payloads.flatMap Subtype.val⟩ g).map
          Prod.snd := fun g => rfl
  rw [modifyLoop_of_ready hawaits rfl] at hrun
  refine ⟨_, hrun, rfl, ?_, fun c => ?_⟩
  · dsimp only
    rw [fillArray_eq MeshVariationDatabaseEntry.held realEntry_eq]
    cases clearRequired <;> rfl
  · dsimp only
    rw [fillArray_eq MeshVariationDatabaseEntry.held realEntry_eq]
    exact addRefs_apply _ _ _

/-! Two mods add variations of meshes with textures. -/

def meshDerived : Derived MeshVariationMergeData MeshVariationMergeData := ⟨id, some, fun _ => rfl⟩

def sampleMaterial (texture : UInt8) : MeshVariationDatabaseMergeDataMaterial where
  material := reference 32
  materialVariation := reference 48
  materialId := 1
  textureParameters := [⟨reference texture, [65]⟩, ⟨reference 80, [66]⟩]
  surfaceShaderGuid := sampleGuid 9
  surfaceShaderId := 2

def lowMeshes : Counted MeshVariationDatabaseMergeDataEntry :=
  ⟨[⟨reference 16, [sampleMaterial 64, sampleMaterial 80], 3⟩], by decide⟩

def highMeshes : Counted MeshVariationDatabaseMergeDataEntry :=
  ⟨[⟨reference 17, [sampleMaterial 64], 4⟩, ⟨reference 18, [], 5⟩], by decide⟩

def meshGame : Game Unit MeshVariationDatabase := ⟨oneDomain, fun _ => 1, ⟨[], [8]⟩⟩

def meshHandlers (_ : UInt32) : Option (CustomAssetHandler MeshVariationMergeData) :=
  some (meshVariationHandler meshDerived)

def meshModify (_ : UInt32) (data : MeshVariationMergeData) (g : Game Unit MeshVariationDatabase) :
    Option (Bool × Game Unit MeshVariationDatabase) :=
  genericModify meshDerived (MeshVariationMergeData.modify false) data g

theorem meshes_appended : ∃ g',
    runHandlers meshHandlers meshModify
        [bytesResource (vectorBytes MeshVariationDatabaseMergeDataEntry.bytes highMeshes),
          bytesResource (vectorBytes MeshVariationDatabaseMergeDataEntry.bytes lowMeshes)] []
        .referencesResolved [] meshGame = .ok (some (true, [], g')) ∧
      g'.asset = ⟨(lowMeshes.val ++ highMeshes.val).map (resolveEntry oneDomain), [8]⟩ ∧
      g'.refCounts 64 = 3 ∧ g'.refCounts 80 = 5 := by
  have hcarries : List.Forall₂
      (fun r p => CarriesBytes 1 r (vectorBytes MeshVariationDatabaseMergeDataEntry.bytes p))
      (([bytesResource (vectorBytes MeshVariationDatabaseMergeDataEntry.bytes highMeshes),
        bytesResource (vectorBytes MeshVariationDatabaseMergeDataEntry.bytes lowMeshes)]).filter
          (·.merges [])).reverse [lowMeshes, highMeshes] :=
    .cons (bytesResource_carries (by decide +kernel))
      (.cons (bytesResource_carries (by decide +kernel)) .nil)
  have hwritable : ∀ p ∈ [lowMeshes, highMeshes], ∀ entry ∈ p.val, entry.Writable := by decide
  have hhandler : meshHandlers 1 = some (meshVariationHandler meshDerived) := rfl
  have hmodify : meshModify 1 = genericModify meshDerived (MeshVariationMergeData.modify false) := rfl
  obtain ⟨g', hrun, -, hasset, hcounts⟩ := mods_append_meshes hhandler hmodify
    (List.cons_ne_nil _ _) hwritable hcarries [] meshGame
  refine ⟨g', hrun, hasset, ?_, ?_⟩
  · rw [hcounts]
    decide
  · rw [hcounts]
    decide

end Kyber.ModLoader
