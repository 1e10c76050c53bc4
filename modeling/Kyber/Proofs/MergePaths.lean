import Kyber.Proofs.Finalize
import Kyber.Proofs.Localization
import Kyber.Proofs.ShaderReferences

/-!
# One rule for all merge paths

Mods are merged in three places: raw data in `FinalizeModLoads`, localized strings in
`RunHandler`, and shader blocks in `ModifiedShaderBlockDepot::Collect`. The rule is that
of the mods that have an item the last loaded one wins, and `highest` is what it has.

All three go through the vector of resources, which has the last mod first and is sorted
by type. Raw data are taken from the first resource that has some, which is the last
mod's as long as no resource of a lower type has the same id. Strings are loaded from the
back of the vector to the front, later ones over earlier ones, which comes to the same.
Shader blocks are loaded from the front to the back, and later ones are put over earlier
ones there too: the first mod wins.
-/

namespace Kyber.ModLoader

open Kyber.Lib

/-! ## Items of mods -/

section

variable {β : Type} (mods : List KyberMod) (p : ModResource → Bool) (f : ModResource → Option β)

/-- What the last mod that has the item has. -/
def highest : Option β := mods.reverse.findSome? fun m => (m.resources.filter p).findSome? f

/-- What the first one has. -/
def lowest : Option β := mods.findSome? fun m => (m.resources.filter p).reverse.findSome? f

theorem highest_eq : highest mods p f = ((byPriority mods).filter p).findSome? f := by
  rw [highest, byPriority, List.filter_flatMap, findSome?_flatMap]

theorem lowest_eq : lowest mods p f = ((byPriority mods).filter p).reverse.findSome? f := by
  rw [lowest, byPriority, List.filter_flatMap, List.reverse_flatMap, List.reverse_reverse,
    findSome?_flatMap]
  rfl

end

/-- Resources of one type that have a handler are in the vector as they are in the order of
the mods. -/
theorem filter_modResources_handled (mods : List KyberMod) (type : ResourceType)
    {p : ModResource → Bool} (hp : ∀ r, p r = true → r.type = type ∧ r.handlerHash ≠ 0) :
    (finalizeModLoads mods).modResources.filter p = (byPriority mods).filter p := by
  have hkept : ∀ r : ModResource, r.handlerHash ≠ 0 →
      inheritData (collectSources (sorted mods) 0 {}).data r = r := fun r hr => by
    rw [inheritData, if_pos (.inl hr)]
  have hcomp : p ∘ inheritData (collectSources (sorted mods) 0 {}).data = p := by
    funext r
    by_cases hr : r.handlerHash = 0
    · have hnot : ∀ r : ModResource, r.handlerHash = 0 → p r = false := fun r hr =>
        Bool.eq_false_iff.mpr fun h => (hp r h).2 hr
      rw [Function.comp_apply, hnot _ (by simpa using hr), hnot r hr]
    · rw [Function.comp_apply, hkept r hr]
  rw [modResources_eq, List.filter_map, hcomp, filter_sorted]
  · refine (List.map_congr_left fun r hr => ?_).trans (List.map_id _)
    exact hkept r (hp r (List.mem_filter.mp hr).2).2
  · exact fun a _ b _ pa pb => (hp a pa).1.trans (hp b pb).1.symm

/-- The resources of one asset that have a handler. -/
theorem filter_modResources (mods : List KyberMod) (type : ResourceType) (name : ByteString) :
    (finalizeModLoads mods).modResources.filter
        (fun r => r.type == type && r.name == name && r.handlerHash != 0)
      = (byPriority mods).filter
        (fun r => r.type == type && r.name == name && r.handlerHash != 0) :=
  filter_modResources_handled mods type fun r hr => by
    simp only [Bool.and_eq_true, beq_iff_eq, bne_iff_ne] at hr
    exact ⟨hr.1.1, hr.2⟩

/-! ## Raw data -/

/-- No resource of a lower type has data for an id that the last mod has data for. -/
def InTypeOrder (mods : List KyberMod) : Prop :=
  ∀ id r, lastSource mods id = some r →
    ∀ m ∈ mods, ∀ r' ∈ m.resources, r'.supplies id → r.type.value ≤ r'.type.value

theorem source_sorted_iff (mods : List KyberMod) (id : UInt32) :
    source (sorted mods) id = lastSource mods id ↔
      ∀ r, lastSource mods id = some r →
        ∀ m ∈ mods, ∀ r' ∈ m.resources, r'.supplies id → r.type.value ≤ r'.type.value := by
  rw [lastSource_eq]
  cases hlast : source (byPriority mods) id with
  | none =>
      refine iff_of_true (List.find?_eq_none.mpr fun r hr => ?_) fun r hr => by cases hr
      exact List.find?_eq_none.mp hlast r (mem_sorted.mp hr)
  | some r =>
      rw [source, sorted, find?_mergeSort_iff leType_trans leType_total hlast]
      constructor
      · intro h r₁ hr₁ m hm r' hr' hsup
        cases hr₁
        simpa [leType] using h r' (mem_byPriority.mpr ⟨m, hm, hr'⟩) hsup
      · intro h r' hr' hsup
        obtain ⟨m, hm, hr'⟩ := mem_byPriority.mp hr'
        simpa [leType] using h r rfl m hm r' hr' hsup

/-- The last mod's raw data win. -/
structure RawDataWins (mods : List KyberMod) : Prop where
  /-- The override of an id is the last mod's resource. -/
  overrides : ∀ id, ((collectSources (sorted mods) 0 {}).overrides[id]?).bind ((sorted mods)[·]?)
    = lastSource mods id
  /-- The data of an id is the last mod's, in the bundles ... -/
  bundle_data : ∀ id r, lastSource mods id = some r →
    ∀ b, ∀ e ∈ (finalizeModLoads mods).resourcesOf b, e.uniqueIdWithType = id → e.data = r.data
  /-- ... and in the resources that came without. -/
  inherited_data : ∀ id r, lastSource mods id = some r →
    ∀ (i : Nat) (e : ModResource), (sorted mods)[i]? = some e → e.uniqueIdWithType = id →
      e.handlerHash = 0 → e.resourceIndex = -1 →
      ∃ e', (finalizeModLoads mods).modResources[i]? = some e' ∧ e'.uniqueIdWithType = id ∧
        e'.data = r.data

theorem overrides_eq (mods : List KyberMod) (id : UInt32) :
    ((collectSources (sorted mods) 0 {}).overrides[id]?).bind ((sorted mods)[·]?)
      = source (sorted mods) id := by
  cases hsource : source (sorted mods) id with
  | none => rw [(sources_of mods).overrides_none id hsource, Option.bind_none]
  | some r =>
      obtain ⟨k, hk, hget⟩ := (sources_of mods).overrides_some id r hsource
      rw [hk, Option.bind_some, hget]

theorem rawDataWins_iff (mods : List KyberMod) : RawDataWins mods ↔ InTypeOrder mods := by
  constructor
  · intro h id
    exact (source_sorted_iff mods id).mp ((overrides_eq mods id).symm.trans (h.overrides id))
  · intro h
    have hsource := fun id => (source_sorted_iff mods id).mpr (h id)
    constructor
    · exact fun id => (overrides_eq mods id).trans (hsource id)
    · exact fun id r hr b e he hid => resourcesOf_data ((hsource id).trans hr) he hid
    · exact fun id r hr i e he hid hhash hindex =>
        modResources_inherited ((hsource id).trans hr) he hid hhash hindex

/-! ## Localized strings -/

/-- The last mod's strings win, in every asset whose data are strings. -/
def StringsWin (mods : List KyberMod) : Prop :=
  ∀ (δ : Type) (derived : Derived LocalizationMergeData δ)
    (handlers : UInt32 → Option (CustomAssetHandler δ)) (name : ByteString),
    TextDatabase derived handlers name (byPriority mods) →
    ∃ handlerData, runHandler handlers (finalizeModLoads mods).modResources name .postLoad
        = .ok handlerData ∧
      ∀ hash k, stringOf derived handlerData hash k =
        highest mods (·.merges name) fun r => if r.handler = hash then r.string k else none

theorem stringsWin (mods : List KyberMod) : StringsWin mods := by
  intro δ derived handlers name h
  have hfilter : (finalizeModLoads mods).modResources.filter (·.merges name)
      = (byPriority mods).filter (·.merges name) := filter_modResources mods .ebx name
  have htext : TextDatabase derived handlers name (finalizeModLoads mods).modResources := by
    intro r hr hmerges
    have hmem := List.mem_filter.mpr ⟨hr, hmerges⟩
    rw [hfilter] at hmem
    exact h r (List.mem_filter.mp hmem).1 hmerges
  obtain ⟨handlerData, hrun, hstrings⟩ := runHandler_strings htext
  refine ⟨handlerData, hrun, fun hash k => ?_⟩
  rw [hstrings, hfilter, highest_eq]

/-! ## Shader blocks -/

namespace ModifiedShaderBlockDepot

/-- The block that `GetResource` answers. -/
def block (depot : ModifiedShaderBlockDepot) (hash : UInt64) :
    Option (ShaderBlockResource BlockRef) :=
  (depot.getResource hash).bind fun i => depot.resources[i]?.map Prod.snd

theorem block_eq (depot : ModifiedShaderBlockDepot) (hash : UInt64) :
    depot.block hash = (depot.resources.find? (·.1 == hash)).map Prod.snd := by
  obtain ⟨resources⟩ := depot
  show ((resources.findIdx? (·.1 == hash)).bind fun i => resources[i]?.map Prod.snd) = _
  induction resources with
  | nil => rfl
  | cons entry resources ih =>
      rw [List.findIdx?_cons, List.find?_cons]
      cases hentry : entry.1 == hash with
      | true => rfl
      | false =>
          rw [← ih]
          cases resources.findIdx? (·.1 == hash) <;> rfl

variable (depot : ModifiedShaderBlockDepot) (blocks : List (ShaderBlockResource BlockRef))
  (hash : UInt64)

theorem replace_block : (depot.replace blocks).block hash =
    (depot.block hash).map fun resource => (blocks.find? (·.hash == hash)).getD resource := by
  rw [block_eq, block_eq, replace, List.find?_map]
  show ((depot.resources.find? (·.1 == hash)).map _).map _ = _
  cases hfind : depot.resources.find? (·.1 == hash) with
  | none => rfl
  | some entry =>
      obtain rfl : entry.1 = hash := eq_of_beq (List.find?_some hfind :)
      rfl

theorem containsHash_eq : depot.containsHash hash = (depot.block hash).isSome := by
  rw [block_eq, Option.isSome_map, containsHash, Bool.eq_iff_iff, List.find?_isSome,
    List.any_eq_true]

/-- A block is added only if there is none of its hash. -/
theorem add_block : (depot.add blocks).block hash =
    (depot.block hash).or (blocks.find? (·.hash == hash)) := by
  rw [add, List.find?_eq_findSome?_guard]
  refine foldl_first_write block (fun resource hash => Option.guard (·.hash == hash) resource) ?_
    blocks depot
  intro depot resource
  rw [containsHash_eq, Option.guard]
  by_cases hhash : resource.hash = hash
  · subst hhash
    rw [if_pos (beq_self_eq_true _)]
    cases hblock : depot.block resource.hash with
    | some old => rw [Option.isSome_some, if_pos rfl, hblock, Option.some_or]
    | none =>
        rw [block_eq, Option.map_eq_none_iff] at hblock
        rw [Option.isSome_none, if_neg Bool.false_ne_true, block_eq, List.find?_append, hblock]
        simp
  · have hguard : (if (resource.hash == hash) = true then some resource else none) = none :=
      if_neg (by simpa using hhash)
    rw [hguard, Option.or_none]
    split
    · rfl
    · rw [block_eq, block_eq, List.find?_append]
      simp [hhash]

/-- The blocks of a mod go over those that are there. -/
theorem replace_add_block : ((depot.replace blocks).add blocks).block hash =
    (blocks.find? (·.hash == hash)).or (depot.block hash) := by
  rw [add_block, replace_block]
  cases depot.block hash with
  | none => rw [Option.map_none, Option.none_or, Option.or_none]
  | some resource => cases blocks.find? (·.hash == hash) <;> rfl

end ModifiedShaderBlockDepot

/-- The blocks of a mod's resource for a depot. -/
def ModResource.shaderBlocks (r : ModResource) :
    Except Fault (List (ShaderBlockResource BlockRef)) := do
  let bytes ← ModifiedShaderBlockDepot.handlerData r.data
  let (blocks, _) ← ModifiedShaderBlockDepot.readBlocks.run (.ofBytes bytes)
  return blocks

/-- The block that a resource has for a hash. -/
def ModResource.shaderBlock (r : ModResource) (hash : UInt64) :
    Option (ShaderBlockResource BlockRef) :=
  r.shaderBlocks.toOption.bind (·.find? (·.hash == hash))

namespace ModifiedShaderBlockDepot

/-- The round for one resource. -/
def supply (depot : ModifiedShaderBlockDepot) (r : ModResource) :
    Except Fault ModifiedShaderBlockDepot := do
  depot.load (← handlerData r.data)

theorem supply_eq (depot : ModifiedShaderBlockDepot) (r : ModResource) :
    depot.supply r = do
      let blocks ← r.shaderBlocks
      return (depot.replace blocks).add blocks := by
  rw [supply, ModResource.shaderBlocks]
  cases handlerData r.data with
  | error e => rfl
  | ok bytes =>
      rw [except_ok_bind, except_ok_bind, load]
      cases readBlocks.run (.ofBytes bytes) <;> rfl

theorem supply_ok_iff (depot : ModifiedShaderBlockDepot) (r : ModResource) :
    (∃ depot', depot.supply r = .ok depot') ↔ ∃ blocks, r.shaderBlocks = .ok blocks := by
  rw [supply_eq]
  cases r.shaderBlocks with
  | error e =>
      constructor
      · rintro ⟨depot', h⟩
        cases h
      · rintro ⟨blocks, h⟩
        cases h
  | ok blocks => exact ⟨fun _ => ⟨blocks, rfl⟩, fun _ => ⟨_, rfl⟩⟩

theorem supply_block {depot depot' : ModifiedShaderBlockDepot} {r : ModResource}
    (h : depot.supply r = .ok depot') (hash : UInt64) :
    depot'.block hash = (r.shaderBlock hash).or (depot.block hash) := by
  rw [supply_eq] at h
  obtain ⟨blocks, hblocks, heq⟩ := bind_eq_ok h
  cases heq
  rw [replace_add_block, ModResource.shaderBlock, hblocks]
  rfl

/-- For each hash the last resource in the vector that has a block wins. -/
theorem collect_block {name : ByteString} {modResources : List ModResource}
    {depot : ModifiedShaderBlockDepot} (h : collect name modResources = .ok depot) (hash : UInt64) :
    depot.block hash =
      (modResources.filter (collects name)).reverse.findSome? (·.shaderBlock hash) := by
  have hlast := foldlM_last_write block ModResource.shaderBlock (fun _ => True) (k := hash)
    (fun depot r depot' _ _ hsupply => ⟨trivial, supply_block hsupply hash⟩) trivial h
  rw [hlast]
  exact Option.or_none

theorem collect_ok_iff (name : ByteString) (modResources : List ModResource) :
    (∃ depot, collect name modResources = .ok depot) ↔
      ∀ r ∈ modResources.filter (collects name), ∃ blocks, r.shaderBlocks = .ok blocks :=
  foldlM_ok_iff (fun _ => True) (fun depot _ r _ => supply_ok_iff depot r)
    (fun _ _ _ _ _ _ => trivial) trivial

end ModifiedShaderBlockDepot

/-- The last mod's blocks win, in every depot. -/
def BlocksWin (mods : List KyberMod) : Prop :=
  ∀ name, ∃ depot,
    ModifiedShaderBlockDepot.collect name (finalizeModLoads mods).modResources = .ok depot ∧
      ∀ hash, depot.block hash =
        highest mods (ModifiedShaderBlockDepot.collects name) (·.shaderBlock hash)

/-- The blocks for a depot can be read, and the first and the last mod that have one of a
hash have the same. -/
structure BlocksAgree (mods : List KyberMod) (name : ByteString) : Prop where
  readable : ∀ m ∈ mods, ∀ r ∈ m.resources, ModifiedShaderBlockDepot.collects name r →
    ∃ blocks, r.shaderBlocks = .ok blocks
  agree : ∀ hash,
    lowest mods (ModifiedShaderBlockDepot.collects name) (·.shaderBlock hash) =
      highest mods (ModifiedShaderBlockDepot.collects name) (·.shaderBlock hash)

theorem filter_collects (mods : List KyberMod) (name : ByteString) :
    (finalizeModLoads mods).modResources.filter (ModifiedShaderBlockDepot.collects name)
      = (byPriority mods).filter (ModifiedShaderBlockDepot.collects name) :=
  filter_modResources mods .res name

theorem collect_modResources_ok_iff (mods : List KyberMod) (name : ByteString) :
    (∃ depot, ModifiedShaderBlockDepot.collect name (finalizeModLoads mods).modResources
        = .ok depot) ↔
      ∀ m ∈ mods, ∀ r ∈ m.resources, ModifiedShaderBlockDepot.collects name r →
        ∃ blocks, r.shaderBlocks = .ok blocks := by
  rw [ModifiedShaderBlockDepot.collect_ok_iff, filter_collects]
  constructor
  · intro h m hm r hr hcollects
    exact h r (List.mem_filter.mpr ⟨mem_byPriority.mpr ⟨m, hm, hr⟩, hcollects⟩)
  · intro h r hr
    obtain ⟨hmem, hcollects⟩ := List.mem_filter.mp hr
    obtain ⟨m, hm, hr⟩ := mem_byPriority.mp hmem
    exact h m hm r hr hcollects

/-- It is the first mod whose block is there. -/
theorem collect_modResources_block {mods : List KyberMod} {name : ByteString}
    {depot : ModifiedShaderBlockDepot}
    (h : ModifiedShaderBlockDepot.collect name (finalizeModLoads mods).modResources = .ok depot)
    (hash : UInt64) : depot.block hash =
      lowest mods (ModifiedShaderBlockDepot.collects name) (·.shaderBlock hash) := by
  rw [ModifiedShaderBlockDepot.collect_block h, filter_collects, lowest_eq]

theorem blocksWin_iff (mods : List KyberMod) :
    BlocksWin mods ↔ ∀ name, BlocksAgree mods name := by
  refine forall_congr' fun name => ⟨?_, ?_⟩
  · rintro ⟨depot, hcollect, hblocks⟩
    refine ⟨(collect_modResources_ok_iff mods name).mp ⟨depot, hcollect⟩, fun hash => ?_⟩
    rw [← collect_modResources_block hcollect, hblocks]
  · intro h
    obtain ⟨depot, hcollect⟩ := (collect_modResources_ok_iff mods name).mpr h.readable
    refine ⟨depot, hcollect, fun hash => ?_⟩
    rw [collect_modResources_block hcollect, h.agree]

/-! ## All three -/

/-- The last mod wins everywhere exactly if no resource of a lower type has the id of its
raw data, and no mod before it has another shader block of one hash. -/
theorem last_mod_wins_iff (mods : List KyberMod) :
    RawDataWins mods ∧ StringsWin mods ∧ BlocksWin mods ↔
      InTypeOrder mods ∧ ∀ name, BlocksAgree mods name := by
  rw [rawDataWins_iff, blocksWin_iff]
  exact and_congr_right fun _ => ⟨fun h => h.2, fun h => ⟨stringsWin mods, h⟩⟩

/-- The resource of `shaderModResource` with a block of another type. -/
def variationModResource : ModResource :=
  { shaderModResource with
    data := { shaderModResource.data with
      buffer := some ([0x54, 0] ++ leBytes 4 1 ++ List.replicate 12 0 ++ leBytes 8 40 ++
        leBytes 8 4 ++ List.replicate 8 0 ++ leBytes 8 7 ++ leBytes 8 32 ++ leBytes 8 0) } }

/-- Two mods have a block of one hash, and the one that was loaded first wins. -/
theorem first_mod_wins :
    let mods : List KyberMod :=
      [{ resources := [shaderModResource] }, { resources := [variationModResource] }]
    highest mods (ModifiedShaderBlockDepot.collects [0x64]) (·.shaderBlock 7)
        = some { hash := 7, block := .meshVariation [] } ∧
      (∃ depot, ModifiedShaderBlockDepot.collect [0x64] (finalizeModLoads mods).modResources
          = .ok depot ∧ depot.block 7 = some { hash := 7, block := .persistentParamDb [] }) ∧
      ¬ (RawDataWins mods ∧ StringsWin mods ∧ BlocksWin mods) := by
  intro mods
  have hhighest : highest mods (ModifiedShaderBlockDepot.collects [0x64]) (·.shaderBlock 7)
      = some { hash := 7, block := .meshVariation [] } := by decide
  have hlowest : lowest mods (ModifiedShaderBlockDepot.collects [0x64]) (·.shaderBlock 7)
      = some { hash := 7, block := .persistentParamDb [] } := by decide
  have hreadable : ∀ r ∈ [shaderModResource, variationModResource],
      ∃ blocks, r.shaderBlocks = .ok blocks := by
    intro r hr
    rcases List.mem_pair.mp hr with rfl | rfl
    · exact ⟨[{ hash := 7, block := .persistentParamDb [] }], by decide⟩
    · exact ⟨[{ hash := 7, block := .meshVariation [] }], by decide⟩
  obtain ⟨depot, hcollect⟩ := (collect_modResources_ok_iff mods [0x64]).mpr fun m hm r hr _ => by
    refine hreadable r ?_
    rcases List.mem_pair.mp hm with rfl | rfl
    · exact List.mem_cons.mpr (.inl (List.mem_singleton.mp hr))
    · exact List.mem_cons_of_mem _ hr
  have hblock := (collect_modResources_block hcollect 7).trans hlowest
  refine ⟨hhighest, ⟨depot, hcollect, hblock⟩, ?_⟩
  rintro ⟨-, -, hwin⟩
  obtain ⟨depot', hcollect', hblocks⟩ := hwin [0x64]
  cases hcollect.symm.trans hcollect'
  cases hblock.symm.trans ((hblocks 7).trans hhighest)

end Kyber.ModLoader
