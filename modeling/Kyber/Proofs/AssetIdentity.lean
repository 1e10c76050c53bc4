import Kyber.Proofs.Aggregation
import Kyber.Proofs.MergePaths

/-!
# Assets that share an id

`FinalizeModLoads` compares resources by their id alone, which is a 32-bit hash of the type and
the name. It never looks at the type or the name of what it takes from where. So a resource is
given the data of another asset, or makes room for it in a bundle, exactly if two assets share
an id and their resources meet.

They meet in three ways. A resource without data meets the one that leads its id, a resource of
a bundle meets that too, and it meets the other resources of the bundle. The leader is the
resource with data of the lowest type, and of the last mod among those: `source_eq_some_iff`
reads it off the mods, where `source` finds it in the vector.
-/

namespace Kyber.ModLoader

open Kyber.Lib

/-- The resources are about one asset. -/
def ModResource.SameAsset (r r' : ModResource) : Prop :=
  r.type = r'.type ∧ SameLetters r.name r'.name

theorem ModResource.SameAsset.trans {a b c : ModResource} (h : a.SameAsset b)
    (h' : b.SameAsset c) : a.SameAsset c :=
  ⟨h.1.trans h'.1, Eq.trans h.2 h'.2⟩

theorem ModResource.SameAsset.symm {a b : ModResource} (h : a.SameAsset b) : b.SameAsset a :=
  ⟨h.1.symm, Eq.symm h.2⟩

theorem ModResource.SameAsset.refl (r : ModResource) : r.SameAsset r := ⟨rfl, rfl⟩

/-! ## What the stages do with an id -/

/-- The resource that the maps of stage 2 have for an id. -/
def giver (mods : List KyberMod) (id : UInt32) : Option ModResource :=
  ((collectSources (sorted mods) 0 {}).overrides[id]?).bind ((sorted mods)[·]?)

/-- There is something to give the resource. -/
def ModResource.Lacks (r : ModResource) : Prop := r.handlerHash = 0 ∧ r.resourceIndex = -1

instance (r : ModResource) : Decidable r.Lacks := inferInstanceAs (Decidable (_ ∧ _))

/-- The resource with the data of the giver of its id. -/
def ModResource.given (mods : List KyberMod) (r : ModResource) : ModResource :=
  match giver mods r.uniqueIdWithType with
  | some s => { r with resourceIndex := 0, data := s.data }
  | none => r

theorem modResources_given (mods : List KyberMod) :
    (finalizeModLoads mods).modResources
      = (sorted mods).map fun r => if r.Lacks then r.given mods else r := by
  rw [modResources_eq]
  refine List.map_congr_left fun r _ => ?_
  rw [inheritData, (sources_of mods).data, ModResource.given, giver, overrides_eq]
  by_cases h : r.Lacks
  · rw [if_pos h, if_neg (by simp [h.1, h.2])]
    cases source (sorted mods) r.uniqueIdWithType <;> rfl
  · rw [if_neg h, if_pos]
    rwa [ModResource.Lacks, Classical.not_and_iff_not_or_not] at h

/-- No asset takes the place of another. -/
structure NoOverride (mods : List KyberMod) : Prop where
  /-- What a resource is given are data of its asset. -/
  data : ∀ r ∈ sorted mods, r.Lacks → ∀ s, giver mods r.uniqueIdWithType = some s → s.SameAsset r
  /-- A resource that asks to be in a bundle is there itself, or its asset is. -/
  bundles : ∀ b, ∀ r ∈ requests b (sorted mods), ∀ e ∈ (finalizeModLoads mods).resourcesOf b,
    e.uniqueIdWithType = r.uniqueIdWithType → e.SameAsset r

/-! ## The condition on the mods -/

/-- The resource is the one with data for its id that has the lowest type, and among those the
first from the last mod on. -/
def Leads (mods : List KyberMod) (s : ModResource) : Prop :=
  s.handlerFreeData = true ∧ ∃ front back, byPriority mods = front ++ s :: back ∧
    (∀ r ∈ byPriority mods, r.supplies s.uniqueIdWithType → s.type.value ≤ r.type.value) ∧
    ∀ r ∈ front, r.supplies s.uniqueIdWithType → s.type.value < r.type.value

/-- Resources that share an id are about one asset wherever they meet. -/
structure NoClash (mods : List KyberMod) : Prop where
  lacking : ∀ r ∈ byPriority mods, r.Lacks → ∀ s, Leads mods s →
    s.uniqueIdWithType = r.uniqueIdWithType → s.SameAsset r
  leading : ∀ r ∈ byPriority mods, r.inBundles → r.bundles ≠ [] → ∀ s, Leads mods s →
    s.uniqueIdWithType = r.uniqueIdWithType → s.SameAsset r
  together : ∀ b, ∀ r ∈ requests b (byPriority mods), ∀ r' ∈ requests b (byPriority mods),
    r.uniqueIdWithType = r'.uniqueIdWithType → r.SameAsset r'

theorem source_eq_some_iff {mods : List KyberMod} {id : UInt32} {s : ModResource} :
    source (sorted mods) id = some s ↔ Leads mods s ∧ s.uniqueIdWithType = id := by
  rw [source, sorted, find?_mergeSort_eq_some_iff leType_trans leType_total, Leads,
    ModResource.supplies, Bool.and_eq_true, beq_iff_eq]
  have hfront : ∀ (front : List ModResource),
      (∀ r ∈ front, r.supplies id = true → leType r s = false)
        ↔ ∀ r ∈ front, r.supplies id → s.type.value < r.type.value := by
    intro front
    simp [leType]
  simp only [hfront, show ∀ r, (leType s r = true) = (s.type.value ≤ r.type.value) from
    fun r => by simp [leType]]
  constructor
  · rintro ⟨⟨hdata, rfl⟩, h⟩
    exact ⟨⟨hdata, h⟩, rfl⟩
  · rintro ⟨⟨hdata, h⟩, rfl⟩
    exact ⟨⟨hdata, rfl⟩, h⟩

theorem giver_eq_some_iff {mods : List KyberMod} {id : UInt32} {s : ModResource} :
    giver mods id = some s ↔ Leads mods s ∧ s.uniqueIdWithType = id := by
  rw [giver, overrides_eq, source_eq_some_iff]

theorem mem_requests_sorted {mods : List KyberMod} {b : UInt32} {r : ModResource} :
    r ∈ requests b (sorted mods) ↔ r ∈ requests b (byPriority mods) := by
  rw [mem_requests, mem_requests, mem_sorted]

/-! ## Bundles -/

section

variable {mods : List KyberMod} {b : UInt32} {r : ModResource}
  (hr : r ∈ requests b (sorted mods))

include hr

theorem exists_first_request :
    ∃ r₀ ∈ firsts (·.uniqueIdWithType) (requests b (sorted mods)),
      r₀.uniqueIdWithType = r.uniqueIdWithType :=
  List.mem_map.mp ((mem_map_firsts _).mpr (List.mem_map.mpr ⟨r, hr, rfl⟩))

/-- The leader of an id is in the bundles that ask for the id. -/
theorem leader_mem_resourcesOf {s : ModResource} (hs : Leads mods s)
    (hid : s.uniqueIdWithType = r.uniqueIdWithType) :
    s ∈ (finalizeModLoads mods).resourcesOf b := by
  obtain ⟨r₀, hr₀, hid₀⟩ := exists_first_request hr
  rw [resourcesOf_eq]
  refine List.mem_map.mpr ⟨r₀, hr₀, ?_⟩
  rw [source_eq_some_iff.mpr ⟨hs, hid.trans hid₀.symm⟩]
  rfl

/-- Without a leader a resource of the bundle is. -/
theorem request_mem_resourcesOf (hno : source (sorted mods) r.uniqueIdWithType = none) :
    ∃ e ∈ (finalizeModLoads mods).resourcesOf b, e.uniqueIdWithType = r.uniqueIdWithType := by
  obtain ⟨r₀, hr₀, hid₀⟩ := exists_first_request hr
  refine ⟨r₀, ?_, hid₀⟩
  rw [resourcesOf_eq]
  refine List.mem_map.mpr ⟨r₀, hr₀, ?_⟩
  rw [hid₀, hno]
  rfl

end

/-- What a bundle has for an id leads it, or asked for the bundle. -/
theorem resourcesOf_cases {mods : List KyberMod} {b : UInt32} {e : ModResource}
    (he : e ∈ (finalizeModLoads mods).resourcesOf b) :
    Leads mods e ∨ e ∈ requests b (sorted mods) := by
  rw [resourcesOf_eq] at he
  obtain ⟨r, hr, rfl⟩ := List.mem_map.mp he
  cases hs : source (sorted mods) r.uniqueIdWithType with
  | some s => exact .inl (source_eq_some_iff.mp hs).1
  | none => exact .inr ((firsts_sublist _ _).subset hr)

/-! ## Overrides of other assets -/

theorem NoOverride.noClash {mods : List KyberMod} (h : NoOverride mods) : NoClash mods where
  lacking r hr hlacks s hs hid :=
    h.data r (mem_sorted.mpr hr) hlacks s (giver_eq_some_iff.mpr ⟨hs, hid⟩)
  leading r hr hin hbundles s hs hid := by
    obtain ⟨b, hb⟩ := List.exists_mem_of_ne_nil _ hbundles
    have hreq : r ∈ requests b (sorted mods) := mem_requests.mpr ⟨mem_sorted.mpr hr, hin, hb⟩
    exact h.bundles b r hreq s (leader_mem_resourcesOf hreq hs hid) hid
  together b r hr r' hr' hid := by
    rw [← mem_requests_sorted] at hr hr'
    have hboth : ∀ e ∈ (finalizeModLoads mods).resourcesOf b,
        e.uniqueIdWithType = r.uniqueIdWithType → r.SameAsset r' := fun e he heid =>
      (h.bundles b r hr e he heid).symm.trans (h.bundles b r' hr' e he (heid.trans hid))
    cases hs : source (sorted mods) r.uniqueIdWithType with
    | some s =>
        obtain ⟨hleads, hsid⟩ := source_eq_some_iff.mp hs
        exact hboth s (leader_mem_resourcesOf hr hleads hsid) hsid
    | none =>
        obtain ⟨e, he, heid⟩ := request_mem_resourcesOf hr hs
        exact hboth e he heid

theorem NoClash.noOverride {mods : List KyberMod} (h : NoClash mods) : NoOverride mods where
  data r hr hlacks s hs := by
    obtain ⟨hleads, hid⟩ := giver_eq_some_iff.mp hs
    exact h.lacking r (mem_sorted.mp hr) hlacks s hleads hid
  bundles b r hr e he hid := by
    obtain ⟨hmem, hin, hb⟩ := mem_requests.mp hr
    rcases resourcesOf_cases he with hleads | hreq
    · exact h.leading r (mem_sorted.mp hmem) hin (List.ne_nil_of_mem hb) e hleads hid
    · exact h.together b e (mem_requests_sorted.mp hreq) r (mem_requests_sorted.mp hr) hid

/-- Without collisions nothing clashes. -/
theorem NoClash.of_ids {mods : List KyberMod}
    (h : ∀ r ∈ byPriority mods, ∀ r' ∈ byPriority mods,
      r.uniqueIdWithType = r'.uniqueIdWithType → r.SameAsset r') : NoClash mods := by
  have hleads : ∀ s, Leads mods s → s ∈ byPriority mods := by
    rintro s ⟨-, front, back, heq, -⟩
    exact heq ▸ List.mem_append_right _ List.mem_cons_self
  constructor
  case lacking => exact fun r hr _ s hs hid => h s (hleads s hs) r hr hid
  case leading => exact fun r hr _ _ s hs hid => h s (hleads s hs) r hr hid
  case together =>
    exact fun b r hr r' hr' hid => h r (mem_requests.mp hr).1 r' (mem_requests.mp hr').1 hid

/-- A resource is never given the data of another asset, and never makes room for one in a
bundle, exactly if no two assets that share an id meet. -/
theorem noOverride_iff (mods : List KyberMod) :
    (finalizeModLoads mods).modResources
        = (sorted mods).map (fun r => if r.Lacks then r.given mods else r) ∧
      (NoOverride mods ↔ NoClash mods) :=
  ⟨modResources_given mods, NoOverride.noClash, NoClash.noOverride⟩

/-- A mod changes the ebx `b4` ... -/
def changedEbx : ModResource := ebxResource [0x62, 0x34] (idWithType .ebx [0x62, 0x34]) [] 0 10

/-- ... and a later one adds the ebx `dr` of the game, which has the same id, to a bundle. -/
def addedEbx : ModResource := ebxResource [0x64, 0x72] (idWithType .ebx [0x64, 0x72]) [1] (-1) 0

def collidingMods : List KyberMod := [{ resources := [changedEbx] }, { resources := [addedEbx] }]

/-- It gets the data of `b4`, and `b4` is in its place in the bundle. -/
theorem override_of_other_asset :
    (∀ r ∈ byPriority collidingMods, r.uniqueIdWithType = idWithType r.type r.name) ∧
      ((finalizeModLoads collidingMods).modResources.map fun r => (r.name, r.data.size))
        = [([0x64, 0x72], 10), ([0x62, 0x34], 10)] ∧
      ((finalizeModLoads collidingMods).resourcesOf 1).map (·.name) = [[0x62, 0x34]] ∧
      ¬ NoOverride collidingMods := by
  have hsorted : sorted collidingMods = byPriority collidingMods :=
    List.mergeSort_of_pairwise (by decide)
  refine ⟨by decide, ?_, ?_, fun h => ?_⟩
  · rw [modResources_eq, hsorted]
    decide
  · rw [resourcesOf_eq, hsorted]
    decide
  · have hleads : Leads collidingMods changedEbx :=
      ⟨by decide, [addedEbx], [], rfl, by decide, by decide⟩
    have hsame := h.noClash.lacking addedEbx (by decide) (by decide) changedEbx hleads (by decide)
    exact absurd hsame.2 (by decide)

end Kyber.ModLoader
