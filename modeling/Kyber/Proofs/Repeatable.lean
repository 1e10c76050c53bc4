import Kyber.Proofs.LayoutChanges

/-!
# When the layout can be processed twice

The layout that the game is given is made from its own layout, the mods, and the
aggregation. The aggregation is the only one of them that processing changes: the
counts of a bundle's sections grow with every file that is added to it, while the
bundle's files stay what they were. A second run then finds the old files under the
new counts and puts what it adds in other places.

So the runs agree when no file is added to a bundle of the layout. Nothing else can be
seen of the first run: the look-ups of the aggregation leave default entries behind,
which is what the next look-up would have made (`BundleEntries.Agree`).
-/

namespace Kyber.ModLoader

open Kyber.Lib LayoutManifest

/-- Nothing is added to a bundle: none of its resources is a new file, or the bundle is
not in the layout, or it turns files away. -/
def LeavesCounts (loader : Loader) (data : Memory) (entries : BundleEntries) (b : UInt32) : Prop :=
  (∀ r ∈ loader.mods.resourcesOf b, ¬ Adds loader b r) ∨
    (b ∉ hashes data ∧ b ∉ newHashes loader.mods.modResources) ∨
    Refuses loader.addedBundles b (entries.at b)

/-- The same output a second time, with the aggregation that the first run leaves. -/
def Repeatable (loader : Loader) (data : Memory) (entries : BundleEntries) : Prop :=
  ∀ bytes entries', processManifest loader data entries = .ok (bytes, entries') →
    ∃ entries'', processManifest loader data entries' = .ok (bytes, entries'')

/-- A bundle that is not in the layout when the additions are made. -/
theorem absent_of_not_mem {loader : Loader} {data : Memory} {entries e₀ : BundleEntries}
    {m₀ m₁ m₂ : LayoutManifest} {b : UInt32} (hload : load data entries = .ok (m₀, e₀))
    (hnew : addChunksAndBundles loader.mods.modResources {} m₀ = .ok m₁)
    (hmod : modifyFiles loader.vanilla loader.mods.modResources {} m₁ = .ok m₂)
    (hb : b ∉ hashes data) (hb' : b ∉ newHashes loader.mods.modResources) :
    m₂.bundleInfo[b]? = none := by
  have h₀ : m₀.bundleInfo[b]? = none := by rw [load_get hload, if_neg hb]
  have h₁ := addChunksAndBundles_none hnew h₀
  rw [if_neg hb'] at h₁
  have hsame := modifyFiles_sameBundles hmod b
  rw [h₁] at hsame
  simpa using hsame.symm

/-- The additions leave the entry of a bundle as it is. -/
theorem mergedAt_at {loader : Loader} {b : UInt32} {m m' : LayoutManifest}
    {entries entries' : BundleEntries}
    (h : MergedAt loader b (loader.mods.resourcesOf b) m entries m' entries')
    (hleaves : (∀ r ∈ loader.mods.resourcesOf b, ¬ Adds loader b r) ∨
      m.bundleInfo[b]? = none ∨ Refuses loader.addedBundles b (entries.at b)) :
    entries'.at b = entries.at b := by
  obtain ⟨m₁, e₁, deferred, m₂, m₃, e₃, hget, hat, hfiles, hadd, -, hat'⟩ := h.run
  rw [hat', ← hat]
  rcases hleaves with hno | habsent | hrefuses
  · have hnil := addFiles_noAdds hno hfiles
    subst hnil
    cases hadd
    rfl
  · have hsame := addFiles_sameBundles hfiles b
    rw [hget, habsent] at hsame
    exact (addDeferred_absent (by simpa using hsame.symm) hadd).2 b
  · rw [← hat] at hrefuses
    exact (addDeferred_refused hrefuses hadd).2 b

theorem processManifest_repeatable (loader : Loader) (data : Memory) (entries : BundleEntries)
    (hleaves : ∀ b, LeavesCounts loader data entries b) : Repeatable loader data entries := by
  intro bytes entries' h
  obtain ⟨⟨m₀, e₀⟩, hload, h⟩ := bind_eq_ok h
  obtain ⟨⟨m₃, e₃⟩, hmerge, h⟩ := bind_eq_ok h
  obtain ⟨modified, hsave, h⟩ := bind_eq_ok h
  cases h
  obtain ⟨m₁, hnew, hmerge⟩ := bind_eq_ok hmerge
  obtain ⟨m₂, hmod, hmerge⟩ := bind_eq_ok hmerge
  -- The first run leaves the aggregation as it was.
  have hkept : entries.Agree entries' := by
    intro b
    rw [← load_agree hload b]
    refine (mergedAt_at (mergeBundles_resourcesOf b hmerge) ?_).symm
    rcases hleaves b with hno | ⟨hb, hb'⟩ | hrefuses
    · exact .inl hno
    · exact .inr (.inl (absent_of_not_mem hload hnew hmod hb hb'))
    · exact .inr (.inr (by rwa [load_agree hload b]))
  -- So the second one does what the first one did.
  obtain ⟨e₀', hload', he₀⟩ := load_replay hkept hload
  obtain ⟨e₃', hmerge', -⟩ := mergeBundles_replay he₀ hmerge
  refine ⟨e₃', ?_⟩
  simp only [processManifest, mergeLayoutManifest, hload', hnew, hmod, hmerge', hsave, bind,
    Except.bind, pure, Except.pure]

/-! ## One bundle -/

/-- A layout of one bundle, with the hash 5. -/
def singleBundle : Memory := fun i =>
  if i = 4 then 1 else if i = NativeLayoutManifest.bundleInfoOffset then 5 else 0

def vanillaFile (offset : UInt32) : FileInfo := { file := 1, offset, size := 1 }

/-- The bundle has its manifest, an ebx and a res. -/
def singleEntry : BundleEntries :=
  ({} : BundleEntries).insert 5
    { hash := 5, ebxCount := 1, resCount := 1,
      files := [vanillaFile 0, vanillaFile 1, vanillaFile 2] }

/-- An ebx that a mod has for the bundle. -/
def modEbx : ModResource where
  type := .ebx
  name := [0x61]
  bundles := [5]
  handlerHash := 0
  resourceIndex := 0
  dupedWithHandler := false
  data :=
    { size := 1, originalSize := 1, buffer := none, fbFile := 9, dataOffset := 0, resType := 0
      resRid := 0, resMeta := Vector.replicate 16 0, rangeStart := 0, rangeEnd := 0
      logicalOffset := 0, logicalSize := 0, h32 := 0, firstMip := 0 }
  uniqueIdWithType := 1

/-- A loader of one mod, with or without the ebx in the vanilla bundle. -/
def ebxLoader (vanilla : Bool) : Loader where
  mods := finalizeModLoads [{ resources := [modEbx] }]
  addedBundles := {}
  dupedHandlerSources := {}
  vanilla :=
    { getVanillaEbxEntry := fun _ =>
        if vanilla then
          some { entry := { name := [0x61], originalSize := 1 }, file := vanillaFile 1
                 bundleFileOffsets := ({} : Std.TreeMap UInt32 UInt32).insert 5 1 }
        else none
      getVanillaResEntry := fun _ => none
      getVanillaChunkEntry := fun _ => none }

/-- The mod replaces the ebx. -/
theorem processManifest_repeatable_replaced :
    (∀ b, LeavesCounts (ebxLoader true) singleBundle singleEntry b) ∧
      Repeatable (ebxLoader true) singleBundle singleEntry := by
  have hleaves : ∀ b, LeavesCounts (ebxLoader true) singleBundle singleEntry b := by
    intro b
    by_cases hb : b = 5
    · subst hb
      left
      have hresources : (ebxLoader true).mods.resourcesOf 5 = [modEbx] := by decide +kernel
      have hposition : (ebxLoader true).vanilla.position .ebx modEbx.name 5 ≠ none := by
        decide
      rw [hresources]
      simp only [List.mem_singleton, forall_eq]
      rintro ⟨type, htype, hadds⟩
      cases htype
      rw [if_pos (by decide)] at hadds
      exact hposition hadds
    · right
      left
      have hhashes : hashes singleBundle = [5] := by decide
      have hnew : newHashes (ebxLoader true).mods.modResources = [] := by decide +kernel
      rw [hhashes, hnew]
      simp [hb]
  exact ⟨hleaves, processManifest_repeatable _ _ _ hleaves⟩

/-- The mod adds the ebx: it goes behind the first file of the bundle, and in the second
run behind the second. -/
theorem addedEbx_not_repeatable : ¬ Repeatable (ebxLoader false) singleBundle singleEntry := by
  intro hrep
  have hfirst : ((processManifest (ebxLoader false) singleBundle singleEntry).toOption.map fun p =>
      decide ((processManifest (ebxLoader false) singleBundle p.2).toOption.map Prod.fst
        = some p.1)) = some false := by
    decide +kernel
  obtain ⟨⟨bytes, entries'⟩, hrun, hne⟩ := Option.map_eq_some_iff.mp hfirst
  have hok : processManifest (ebxLoader false) singleBundle singleEntry = .ok (bytes, entries') := by
    cases hp : processManifest (ebxLoader false) singleBundle singleEntry with
    | error e =>
        rw [hp] at hrun
        cases hrun
    | ok p =>
        rw [hp] at hrun
        cases hrun
        rfl
  obtain ⟨entries'', hsecond⟩ := hrep bytes entries' hok
  rw [hsecond] at hne
  simp [Except.toOption] at hne

end Kyber.ModLoader
