import Kyber.Proofs.ManifestChanges

/-!
# What the passes know of the vanilla bundles

The aggregation is made from the game's files ahead of time. It says for every bundle
which files it has and how many of each kind, and for every asset where its file is in
the bundles that have it. `Aggregation` says that this is true of the layout and of the
bundles' manifests.

Assets are looked up in several ways: by a hash of the type and the name, by the name,
by the rid of a res and the guid of a chunk. `Consistent` says that these lead to the
same assets. Then however the entry of a resource is found in a vanilla manifest, it is
the one at the resource's position (`position_of_found`, `found_of_position`).
-/

namespace Kyber.ModLoader

open Kyber.Lib

/-! ## The vanilla bundles -/

/-- The entry is the asset of a name. -/
def Entry.IsNamed (name : ByteString) : Entry → Prop
  | .ebx entry => entry.name = name
  | .res entry => entry.name = name
  | .chunk entry => entry.guid = Guid.fromString name

def BundleEntry.sectionCount (entry : BundleEntry) : AssetType → UInt32
  | .ebx => entry.ebxCount
  | .res => entry.resCount
  | .chunk => entry.chunkCount

/-- The place of an entry's file among the files of a bundle, behind the manifest's. -/
def BundleManifest.place (manifest : BundleManifest) (type : AssetType) (i : Nat) : Nat :=
  1 + (start AssetType.order manifest.entries type + i)

/-- What the aggregation says about a bundle that has a manifest: it has a file for
the manifest and one for every entry, the sections are counted, and the positions of
the assets are their places. -/
structure AggregatedBundle (vanilla : VanillaTables) (b : UInt32) (entry : BundleEntry)
    (manifest : BundleManifest) : Prop where
  hash : entry.hash = b
  files : entry.files.length = 1 + (flat AssetType.order manifest.entries).length
  counts : ∀ type, (entry.sectionCount type).toNat = (manifest.entries type).length
  positioned : ∀ type i e, (manifest.entries type)[i]? = some e →
    ∃ name position, e.IsNamed name ∧ vanilla.position type name b = some position ∧
      position.toNat = manifest.place type i
  placed : ∀ type name position, vanilla.position type name b = some position →
    ∃ i e, (manifest.entries type)[i]? = some e ∧ e.IsNamed name ∧
      position.toNat = manifest.place type i
  rids : ∀ e ∈ manifest.resEntries, ∃ original,
    vanilla.getVanillaResEntry e.name = some original ∧ original.entry.resRid = e.resRid

/-- The aggregation describes the bundles of the layout, which have the manifests
`manifests` in the game, and says nothing of those that the mods bring. -/
structure Aggregation (loader : Loader) (m : LayoutManifest) (entries : BundleEntries)
    (manifests : UInt32 → BundleManifest) : Prop where
  vanilla : ∀ (b : UInt32) (info : BundleInfo), m.bundleInfo[b]? = some info →
    info = { hash := b, files := (entries.at b).files } ∧
      AggregatedBundle loader.vanilla b (entries.at b) (manifests b)
  new : ∀ b ∈ LayoutManifest.newHashes loader.mods.modResources, m.bundleInfo[b]? = none →
    entries.at b = {} ∧ ∀ type name, loader.vanilla.position type name b = none

/-! ## Names and ids -/

/-- The id that `LoadMod` gives a resource. -/
def idWithType (type : ResourceType) (name : ByteString) : UInt32 :=
  hashQuickLower (toDecimal type.value ++ [0x5f] ++ name)

/-- Names that differ in the case of letters at most, which is all the same to an id. -/
def SameLetters (a b : ByteString) : Prop := a.map toLowerByte = b.map toLowerByte

instance (a b : ByteString) : Decidable (SameLetters a b) := inferInstanceAs (Decidable (_ = _))

/-- The data of the resource goes into bundles as it is. -/
def ModResource.HasData (r : ModResource) : Prop := r.handlerHash = 0 ∧ r.resourceIndex ≠ -1

instance (r : ModResource) : Decidable r.HasData := inferInstanceAs (Decidable (_ ∧ _))

/-- The numbers and names that assets are looked up by do not lead to others. -/
structure Consistent (loader : Loader) : Prop where
  id_eq : ∀ r ∈ loader.mods.modResources, r.uniqueIdWithType = idWithType r.type r.name
  /-- No collisions, of ids ... -/
  ids : ∀ r ∈ loader.mods.modResources, ∀ r' ∈ loader.mods.modResources,
    r.uniqueIdWithType = r'.uniqueIdWithType → r.type = r'.type ∧ SameLetters r.name r'.name
  /-- ... of ids in bundles ... -/
  inBundles : ∀ r ∈ loader.mods.modResources, ∀ r' ∈ loader.mods.modResources,
    ∀ type type' b b', r.type.assetType = some type → r'.type.assetType = some type' →
      (loader.vanilla.position type r.name b).isSome →
      (loader.vanilla.position type' r'.name b').isSome →
      uniqueInBundle r.uniqueIdWithType b = uniqueInBundle r'.uniqueIdWithType b' →
      r.uniqueIdWithType = r'.uniqueIdWithType ∧ b = b'
  /-- ... and of guids. -/
  guids : ∀ r ∈ loader.mods.modResources, ∀ r' ∈ loader.mods.modResources,
    r.type = .chunk → r'.type = .chunk → Guid.fromString r.name = Guid.fromString r'.name →
      r.uniqueIdWithType = r'.uniqueIdWithType
  /-- The names are spelt as in the vanilla tables. -/
  spelt : ∀ r ∈ loader.mods.modResources, ∀ type, r.type.assetType = some type →
    ∀ name, (loader.vanilla.offsets type name).isSome → SameLetters name r.name → name = r.name
  spelt_guid : ∀ r ∈ loader.mods.modResources, r.type = .chunk →
    ∀ name, (loader.vanilla.getVanillaChunkEntry name).isSome →
      Guid.fromString name = Guid.fromString r.name → name = r.name
  /-- A res has the rid of the vanilla res of its name, and no other has it. -/
  rid_vanilla : ∀ r ∈ loader.mods.modResources, r.type = .res → r.HasData →
    ∀ name original, loader.vanilla.getVanillaResEntry name = some original →
      (original.entry.resRid = r.data.resRid ↔ name = r.name)
  rid_mods : ∀ r ∈ loader.mods.modResources, ∀ r' ∈ loader.mods.modResources,
    r.type = .res → r'.type = .res → r.HasData → r'.HasData →
      r.data.resRid = r'.data.resRid → r.uniqueIdWithType = r'.uniqueIdWithType

theorem assetType_ebx {type : ResourceType} (h : type.assetType = some .ebx) : type = .ebx := by
  cases type <;> simp_all [ResourceType.assetType]

theorem assetType_res {type : ResourceType} (h : type.assetType = some .res) : type = .res := by
  cases type <;> simp_all [ResourceType.assetType]

theorem assetType_chunk {type : ResourceType} (h : type.assetType = some .chunk) :
    type = .chunk := by
  cases type <;> simp_all [ResourceType.assetType]

theorem Consistent.eq_id {loader : Loader} (h : Consistent loader) {r r' : ModResource}
    (hr : r ∈ loader.mods.modResources) (hr' : r' ∈ loader.mods.modResources)
    (htype : r.type = r'.type) (hname : r.name = r'.name) :
    r.uniqueIdWithType = r'.uniqueIdWithType := by
  rw [h.id_eq r hr, h.id_eq r' hr', htype, hname]

/-- Resources of one id have one set of positions. -/
theorem Consistent.offsets_eq {loader : Loader} (h : Consistent loader) {r r' : ModResource}
    (hr : r ∈ loader.mods.modResources) (hr' : r' ∈ loader.mods.modResources)
    (hid : r.uniqueIdWithType = r'.uniqueIdWithType) {type : AssetType}
    (htype : r.type.assetType = some type) :
    r'.type.assetType = some type ∧
      loader.vanilla.offsets type r.name = loader.vanilla.offsets type r'.name := by
  obtain ⟨ht, hletters⟩ := h.ids r hr r' hr' hid
  have htype' : r'.type.assetType = some type := by rw [← ht, htype]
  refine ⟨htype', ?_⟩
  by_cases hsome : (loader.vanilla.offsets type r.name).isSome
  · rw [h.spelt r' hr' type htype' r.name hsome hletters]
  · by_cases hsome' : (loader.vanilla.offsets type r'.name).isSome
    · rw [h.spelt r hr type htype r'.name hsome' hletters.symm]
    · rw [Option.not_isSome_iff_eq_none.mp hsome, Option.not_isSome_iff_eq_none.mp hsome']

theorem Consistent.position_eq {loader : Loader} (h : Consistent loader) {r r' : ModResource}
    (hr : r ∈ loader.mods.modResources) (hr' : r' ∈ loader.mods.modResources)
    (hid : r.uniqueIdWithType = r'.uniqueIdWithType) {type : AssetType}
    (htype : r.type.assetType = some type) (b : UInt32) :
    r'.type.assetType = some type ∧
      loader.vanilla.position type r.name b = loader.vanilla.position type r'.name b := by
  obtain ⟨htype', hoffsets⟩ := h.offsets_eq hr hr' hid htype
  exact ⟨htype', by rw [VanillaTables.position, VanillaTables.position, hoffsets]⟩

/-! ## Where a resource is found -/

section Found

variable {loader : Loader} {b : UInt32} {entry : BundleEntry} {vanilla : BundleManifest}
  {r : ModResource} {type : AssetType}

theorem isSome_offsets {tables : VanillaTables} {name : ByteString} {position : UInt32}
    (h : tables.position type name b = some position) : (tables.offsets type name).isSome := by
  rw [VanillaTables.position, Option.bind_eq_some_iff] at h
  obtain ⟨offsets, hoffsets, -⟩ := h
  rw [hoffsets]
  rfl

/-- However a vanilla entry of the bundle is found for a resource, the position of the
resource is its place. -/
theorem position_of_found (hagg : AggregatedBundle loader.vanilla b entry vanilla)
    (hcons : Consistent loader) (hr : r ∈ loader.mods.modResources)
    (htype : r.type.assetType = some type) (hdata : r.HasData) {i : Nat} {e : Entry}
    (he : (vanilla.entries type)[i]? = some e)
    (hfound : r.names e.key = true ∨ r.finds e.key = true) :
    ∃ position, loader.vanilla.position type r.name b = some position ∧
      position.toNat = vanilla.place type i := by
  obtain ⟨name, position, hnamed, hposition, hplace⟩ := hagg.positioned type i e he
  suffices hname : name = r.name by
    subst hname
    exact ⟨position, hposition, hplace⟩
  cases type with
  | ebx =>
      obtain ⟨x, -, rfl⟩ := List.mem_map.mp (List.mem_of_getElem? he)
      have hx : x.name = r.name := by simpa [ModResource.names, ModResource.finds, Entry.key] using hfound
      rw [← hx]
      exact hnamed.symm
  | res =>
      obtain ⟨x, hx, rfl⟩ := List.mem_map.mp (List.mem_of_getElem? he)
      have hname : x.name = r.name := by
        rcases hfound with hname | hrid
        · simpa [ModResource.names, Entry.key] using hname
        · obtain ⟨original, hget, hrid'⟩ := hagg.rids x hx
          refine (hcons.rid_vanilla r hr (assetType_res htype) hdata _ original hget).mp ?_
          rw [hrid']
          simpa [ModResource.finds, Entry.key] using hrid
      rw [← hname]
      exact hnamed.symm
  | chunk =>
      obtain ⟨x, -, rfl⟩ := List.mem_map.mp (List.mem_of_getElem? he)
      have hguid : x.guid = Guid.fromString r.name := by
        simpa [ModResource.names, ModResource.finds, Entry.key] using hfound
      have hsome : (loader.vanilla.getVanillaChunkEntry name).isSome := by
        simpa [VanillaTables.offsets] using isSome_offsets hposition
      refine hcons.spelt_guid r hr (assetType_chunk htype) name hsome ?_
      rw [← hguid]
      exact hnamed.symm

/-- A resource with a position has the entry at its place, and no earlier one. -/
theorem found_of_position (hagg : AggregatedBundle loader.vanilla b entry vanilla)
    (hcons : Consistent loader) (hr : r ∈ loader.mods.modResources)
    (htype : r.type.assetType = some type) (hdata : r.HasData) {position : UInt32}
    (hposition : loader.vanilla.position type r.name b = some position) :
    ∃ i e, (vanilla.entries type)[i]? = some e ∧ position.toNat = vanilla.place type i ∧
      e.key = (r.entry type).key ∧
      ∀ j < i, ∀ e', (vanilla.entries type)[j]? = some e' →
        r.names e'.key = false ∧ r.finds e'.key = false := by
  obtain ⟨i, e, he, hnamed, hplace⟩ := hagg.placed type r.name position hposition
  refine ⟨i, e, he, hplace, ?_, ?_⟩
  · cases type with
    | ebx =>
        obtain ⟨x, -, rfl⟩ := List.mem_map.mp (List.mem_of_getElem? he)
        exact congrArg EntryKey.ebx hnamed
    | res =>
        obtain ⟨x, hx, rfl⟩ := List.mem_map.mp (List.mem_of_getElem? he)
        obtain ⟨original, hget, hrid⟩ := hagg.rids x hx
        have hrid' := (hcons.rid_vanilla r hr (assetType_res htype) hdata _ original hget).mpr hnamed
        rw [hrid] at hrid'
        exact congrArg₂ EntryKey.res hnamed hrid'
    | chunk =>
        obtain ⟨x, -, rfl⟩ := List.mem_map.mp (List.mem_of_getElem? he)
        exact congrArg EntryKey.chunk hnamed
  · intro j hj e' he'
    have hnot : ¬ (r.names e'.key = true ∨ r.finds e'.key = true) := by
      intro hfound
      obtain ⟨position', hposition', hplace'⟩ :=
        position_of_found hagg hcons hr htype hdata he' hfound
      rw [hposition] at hposition'
      cases hposition'
      rw [hplace, BundleManifest.place, BundleManifest.place] at hplace'
      omega
    simpa [not_or] using hnot

theorem names_own (r : ModResource) (type : AssetType) :
    r.names (r.entry type).key = true ∧ r.finds (r.entry type).key = true := by
  cases type <;> exact ⟨beq_self_eq_true _, beq_self_eq_true _⟩

end Found

end Kyber.ModLoader
