import Kyber.Proofs.LayoutChanges

/-!
# When the layout's pass goes through

The pass writes to files at positions and at the ends of sections, and neither is
checked against the list they are positions in. The positions come from the
aggregation: they are inside the lists that `Load` takes from there, and no change
makes a list shorter (`Grows`). The ends of the sections grow with the lists.

The other thing that is not checked is a pointer to the vanilla entry of an asset that
a mod adds to a bundle without changing it.
-/

namespace Kyber.ModLoader

open Kyber.Lib

namespace LayoutManifest

/-- No bundle is new, and none has lost files. -/
def Grows (m m' : LayoutManifest) : Prop :=
  ∀ (b : UInt32) (info' : BundleInfo), m'.bundleInfo[b]? = some info' →
    ∃ info, m.bundleInfo[b]? = some info ∧ info.files.length ≤ info'.files.length

/-- The vanilla positions are positions in the bundles. -/
def Placed (vanilla : VanillaTables) (m : LayoutManifest) : Prop :=
  ∀ (b : UInt32) (info : BundleInfo), m.bundleInfo[b]? = some info → ∀ type name position,
    vanilla.position type name b = some position → position.toNat < info.files.length

/-- The sections are inside the bundles. -/
def Counted (m : LayoutManifest) (entries : BundleEntries) : Prop :=
  ∀ (b : UInt32) (info : BundleInfo), m.bundleInfo[b]? = some info →
    (entries.at b).sectionEnd .chunk ≤ info.files.length

theorem Grows.refl (m : LayoutManifest) : Grows m m := fun _ info' h => ⟨info', h, Nat.le_refl _⟩

theorem Grows.trans {m₁ m₂ m₃ : LayoutManifest} (h₁ : Grows m₁ m₂) (h₂ : Grows m₂ m₃) :
    Grows m₁ m₃ := by
  intro b info₃ h
  obtain ⟨info₂, hget₂, hle₂⟩ := h₂ b info₃ h
  obtain ⟨info₁, hget₁, hle₁⟩ := h₁ b info₂ hget₂
  exact ⟨info₁, hget₁, Nat.le_trans hle₁ hle₂⟩

theorem Placed.mono {vanilla : VanillaTables} {m m' : LayoutManifest} (h : Placed vanilla m)
    (hg : Grows m m') : Placed vanilla m' := by
  intro b info' hget type name position hp
  obtain ⟨info, hget', hle⟩ := hg b info' hget
  exact Nat.lt_of_lt_of_le (h b info hget' type name position hp) hle

theorem Counted.mono {m m' : LayoutManifest} {entries : BundleEntries} (h : Counted m entries)
    (hg : Grows m m') : Counted m' entries := by
  intro b info' hget
  obtain ⟨info, hget', hle⟩ := hg b info' hget
  exact Nat.le_trans (h b info hget') hle

/-- A change of one bundle's files that does not make them fewer. -/
theorem grows_insert {m : LayoutManifest} {b : UInt32} {info : BundleInfo}
    (h : m.bundleInfo[b]? = some info) {files : List FileInfo}
    (hle : info.files.length ≤ files.length) :
    Grows m { m with bundleInfo := m.bundleInfo.insert b { info with files } } := by
  intro b' info' hget
  dsimp only at hget
  rw [getElem?_insert_eq] at hget
  split at hget
  next hb =>
    cases hget
    exact ⟨info, by rw [hb, h], hle⟩
  next => exact ⟨info', hget, Nat.le_refl _⟩

/-! ## Modifications -/

theorem setFileInfo_total {m : LayoutManifest} {b : UInt32} {index : Nat} (file : FileInfo)
    (h : ∀ info, m.bundleInfo[b]? = some info → index < info.files.length) :
    ∃ m', m.setFileInfo b index file = .ok m' ∧ Grows m m' := by
  unfold setFileInfo
  split
  next => exact ⟨m, rfl, .refl m⟩
  next info hget =>
    rw [if_pos (h info hget)]
    exact ⟨_, rfl, grows_insert hget (by simp)⟩

theorem modifyInBundles_total {vanilla : VanillaTables} {r : ModResource} (file : FileInfo)
    {type : AssetType} {offsets : List (UInt32 × UInt32)} (modified : Std.TreeSet UInt32)
    {m : LayoutManifest} (hplaced : Placed vanilla m)
    (hoffsets : ∀ p ∈ offsets, vanilla.position type r.name p.1 = some p.2) :
    ∃ modified' m', modifyInBundles r file offsets modified m = .ok (modified', m') ∧
      Grows m m' := by
  induction offsets generalizing modified m with
  | nil => exact ⟨modified, m, rfl, .refl m⟩
  | cons offset offsets ih =>
      obtain ⟨b, index⟩ := offset
      have hrest := fun p hp => hoffsets p (List.mem_cons_of_mem _ hp)
      rw [modifyInBundles]
      split
      next => exact ih _ hplaced hrest
      next =>
        dsimp only
        split
        next => exact ih _ hplaced hrest
        next =>
          obtain ⟨m₁, hset, hg⟩ := setFileInfo_total file fun info hget =>
            hplaced b info hget type r.name index (hoffsets _ List.mem_cons_self)
          obtain ⟨modified', m', hmod, hg'⟩ := ih _ (hplaced.mono hg) hrest
          exact ⟨modified', m', by rw [hset]; exact hmod, hg.trans hg'⟩

theorem position_of_mem_offsets {vanilla : VanillaTables} {type : AssetType} {name : ByteString}
    {offsets : Std.TreeMap UInt32 UInt32} (h : vanilla.offsets type name = some offsets)
    {p : UInt32 × UInt32} (hp : p ∈ offsets.toList) :
    vanilla.position type name p.1 = some p.2 := by
  rw [VanillaTables.position, h]
  exact Std.TreeMap.mem_toList_iff_getElem?_eq_some.mp hp

theorem modifyFiles_total {vanilla : VanillaTables} (rs : List ModResource)
    (modified : Std.TreeSet UInt32) {m : LayoutManifest} (hplaced : Placed vanilla m) :
    ∃ m', modifyFiles vanilla rs modified m = .ok m' ∧ Grows m m' := by
  induction rs generalizing modified m with
  | nil => exact ⟨m, rfl, .refl m⟩
  | cons r rs ih =>
      rw [modifyFiles]
      split
      next => exact ih _ hplaced
      next =>
        split
        next => exact ih _ hplaced
        next type htype =>
          split
          next => exact ih _ hplaced
          next offsets hoffsets =>
            obtain ⟨modified', m₁, hmod, hg⟩ := modifyInBundles_total (r.bundleFile type) modified
              hplaced fun p hp => position_of_mem_offsets hoffsets hp
            obtain ⟨m', hrest, hg'⟩ := ih modified' (hplaced.mono hg)
            exact ⟨m', by rw [hmod]; exact hrest, hg.trans hg'⟩

/-! ## Additions -/

/-- The resource has data, or a vanilla file. -/
def Backed (loader : Loader) (r : ModResource) : Prop :=
  ∀ type, r.type.assetType = some type → ¬ (r.handlerHash = 0 ∧ r.resourceIndex ≠ -1) →
    ∃ file, unchangedFile loader r type = .ok file

theorem addFile_total {loader : Loader} (b : UInt32) {r : ModResource}
    (deferred : List DeferredBundleFileAdd) {m : LayoutManifest}
    (hplaced : Placed loader.vanilla m) (hbacked : Backed loader r) :
    ∃ deferred' m', addFile loader b r deferred m = .ok (deferred', m') ∧ Grows m m' := by
  unfold addFile
  split
  next => exact ⟨_, _, rfl, .refl m⟩
  next type htype =>
    split
    next =>
      split
      next => exact ⟨_, _, rfl, .refl m⟩
      next index hposition =>
        obtain ⟨m', hset, hg⟩ := setFileInfo_total (r.bundleFile type) fun info hget =>
          hplaced b info hget type r.name index hposition
        exact ⟨deferred, m', by rw [hset]; rfl, hg⟩
    next hdata =>
      obtain ⟨file, hfile⟩ := hbacked type htype hdata
      rw [hfile]
      cases file with
      | none => exact ⟨_, _, rfl, .refl m⟩
      | some file => exact ⟨_, _, rfl, .refl m⟩

theorem addFiles_total {loader : Loader} (b : UInt32) {rs : List ModResource}
    (deferred : List DeferredBundleFileAdd) {m : LayoutManifest}
    (hplaced : Placed loader.vanilla m) (hbacked : ∀ r ∈ rs, Backed loader r) :
    ∃ deferred' m', addFiles loader b rs deferred m = .ok (deferred', m') ∧ Grows m m' := by
  induction rs generalizing deferred m with
  | nil => exact ⟨_, _, rfl, .refl m⟩
  | cons r rs ih =>
      obtain ⟨deferred₁, m₁, hadd, hg⟩ :=
        addFile_total b deferred hplaced (hbacked r List.mem_cons_self)
      obtain ⟨deferred', m', hrest, hg'⟩ := ih deferred₁ (hplaced.mono hg)
        fun r' hr' => hbacked r' (List.mem_cons_of_mem r hr')
      exact ⟨deferred', m', by rw [addFiles, hadd]; exact hrest, hg.trans hg'⟩

theorem toNat_add_one_le (n : UInt32) : (n + 1).toNat ≤ n.toNat + 1 := by
  rw [UInt32.toNat_add]
  exact Nat.mod_le _ _

theorem sectionEnd_le (entry : BundleEntry) (type : AssetType) :
    entry.sectionEnd type ≤ entry.sectionEnd .chunk := by
  cases type <;> simp only [BundleEntry.sectionEnd] <;> omega

theorem sectionEnd_count_le (entry : BundleEntry) (type : AssetType) :
    (entry.count type).sectionEnd .chunk ≤ entry.sectionEnd .chunk + 1 := by
  cases type with
  | ebx =>
      have := toNat_add_one_le entry.ebxCount
      simp only [BundleEntry.count, BundleEntry.sectionEnd]
      omega
  | res =>
      have := toNat_add_one_le entry.resCount
      simp only [BundleEntry.count, BundleEntry.sectionEnd]
      omega
  | chunk =>
      have := toNat_add_one_le entry.chunkCount
      simp only [BundleEntry.count, BundleEntry.sectionEnd]
      omega

theorem addFileToBundle_total {m : LayoutManifest} {entries : BundleEntries}
    (addedBundles : Std.TreeSet UInt32) (b : UInt32) (file : FileInfo) (type : AssetType)
    (hcounted : Counted m entries) :
    ∃ m' entries', m.addFileToBundle entries addedBundles b file type = .ok (m', entries') := by
  unfold addFileToBundle
  split
  next => exact ⟨_, _, rfl⟩
  next info hget =>
    split
    next => exact ⟨_, _, rfl⟩
    next =>
      dsimp only
      split
      next => exact ⟨_, _, rfl⟩
      next =>
        split
        next => exact ⟨_, _, rfl⟩
        next =>
          rw [if_pos (Nat.le_trans (sectionEnd_le _ type) (hcounted b info hget))]
          exact ⟨_, _, rfl⟩

theorem addFileToBundle_grows {m m' : LayoutManifest} {entries entries' : BundleEntries}
    {addedBundles : Std.TreeSet UInt32} {b : UInt32} {file : FileInfo} {type : AssetType}
    (h : m.addFileToBundle entries addedBundles b file type = .ok (m', entries'))
    (hcounted : Counted m entries) : Grows m m' ∧ Counted m' entries' := by
  cases addFileToBundle_ok h with
  | ignored _ agree =>
      refine ⟨.refl m, fun b' info hget => ?_⟩
      rw [agree b']
      exact hcounted b' info hget
  | inserted get _ _ bound at_eq =>
      refine ⟨grows_insert get (List.length_le_length_insertIdx), fun b' info' hget => ?_⟩
      dsimp only at hget
      rw [getElem?_insert_eq] at hget
      rw [at_eq]
      split at hget
      next hb =>
        cases hget
        rw [if_pos hb, List.length_insertIdx_of_le_length bound]
        exact Nat.le_trans (sectionEnd_count_le _ type) (Nat.succ_le_succ (hcounted b _ get))
      next hb =>
        rw [if_neg hb]
        exact hcounted b' info' hget

theorem addDeferred_total {m : LayoutManifest} {entries : BundleEntries}
    (addedBundles : Std.TreeSet UInt32) (b : UInt32) (deferred : List DeferredBundleFileAdd)
    (hcounted : Counted m entries) :
    ∃ m' entries', addDeferred addedBundles b deferred m entries = .ok (m', entries') ∧
      Grows m m' ∧ Counted m' entries' := by
  induction deferred generalizing m entries with
  | nil => exact ⟨m, entries, rfl, .refl m, hcounted⟩
  | cons add deferred ih =>
      obtain ⟨m₁, e₁, hadd⟩ := addFileToBundle_total addedBundles b add.file add.type hcounted
      obtain ⟨hg, hcounted₁⟩ := addFileToBundle_grows hadd hcounted
      obtain ⟨m', e', hrest, hg', hcounted'⟩ := ih hcounted₁
      exact ⟨m', e', by rw [addDeferred, hadd]; exact hrest, hg.trans hg', hcounted'⟩

theorem mergeBundles_total {loader : Loader} (bundles : List (UInt32 × List ModResource))
    {m : LayoutManifest} {entries : BundleEntries} (hplaced : Placed loader.vanilla m)
    (hcounted : Counted m entries) (hbacked : ∀ p ∈ bundles, ∀ r ∈ p.2, Backed loader r) :
    ∃ m' entries', mergeBundles loader bundles m entries = .ok (m', entries') := by
  induction bundles generalizing m entries with
  | nil => exact ⟨m, entries, rfl⟩
  | cons bundle bundles ih =>
      obtain ⟨b, rs⟩ := bundle
      obtain ⟨deferred, m₁, hfiles, hg₁⟩ :=
        addFiles_total b [] hplaced (hbacked _ List.mem_cons_self)
      obtain ⟨m₂, e₂, hadd, hg₂, hcounted₂⟩ :=
        addDeferred_total loader.addedBundles b deferred (hcounted.mono hg₁)
      obtain ⟨m', e', hrest⟩ := ih (hplaced.mono (hg₁.trans hg₂)) hcounted₂
        fun p hp => hbacked p (List.mem_cons_of_mem _ hp)
      refine ⟨m', e', ?_⟩
      rw [mergeBundles, hfiles]
      show (addDeferred loader.addedBundles b deferred m₁ entries >>= _) = _
      rw [hadd]
      exact hrest

/-! ## New bundles -/

/-- There is a bundle, and every one has its manifest. -/
def Headed (m : LayoutManifest) : Prop :=
  (∃ b : UInt32, m.bundleInfo.contains b = true) ∧
    ∀ (b : UInt32) (info : BundleInfo), m.bundleInfo[b]? = some info → info.files ≠ []

theorem addBundle_total {m : LayoutManifest} (h : Headed m) (hash : UInt32) :
    ∃ m', m.addBundle hash = .ok m' ∧ Headed m' := by
  unfold addBundle
  split
  next => exact ⟨m, rfl, h⟩
  next hc =>
    obtain ⟨⟨b, hb⟩, hfiles⟩ := h
    cases hlist : m.bundleInfo.toList with
    | nil =>
        rw [Std.TreeMap.contains_eq_isSome_getElem?, Option.isSome_iff_exists] at hb
        obtain ⟨info, hget⟩ := hb
        have hmem := Std.TreeMap.mem_toList_iff_getElem?_eq_some.mpr hget
        rw [hlist] at hmem
        cases hmem
    | cons first rest =>
        obtain ⟨b₀, hash₀, files₀⟩ := first
        have hmem : (b₀, (⟨hash₀, files₀⟩ : BundleInfo)) ∈ m.bundleInfo.toList := by
          rw [hlist]
          exact List.mem_cons_self
        have hne := hfiles b₀ _ (Std.TreeMap.mem_toList_iff_getElem?_eq_some.mp hmem)
        cases files₀ with
        | nil => exact absurd rfl hne
        | cons header files =>
            refine ⟨_, rfl, ⟨b, ?_⟩, ?_⟩
            · simp [hb]
            · intro b' info hget
              dsimp only at hget
              rw [getElem?_insert_eq] at hget
              split at hget
              next =>
                cases hget
                simp
              next => exact hfiles b' info hget

theorem addChunksAndBundles_total (rs : List ModResource) (modifiedChunks : Std.TreeSet ByteString)
    {m : LayoutManifest} (h : newHashes rs = [] ∨ Headed m) :
    ∃ m', addChunksAndBundles rs modifiedChunks m = .ok m' := by
  induction rs generalizing modifiedChunks m with
  | nil => exact ⟨m, rfl⟩
  | cons r rs ih =>
      rw [newHashes, List.filter_cons] at h
      rw [addChunksAndBundles]
      split
      next htype =>
        rw [if_neg (by simp [htype])] at h
        split
        next => exact ih _ h
        next =>
          split
          next => exact ih _ h
          next => exact ih _ h
      next =>
        split
        next htype =>
          rw [if_pos (by simp [htype])] at h
          obtain ⟨m₁, hadd, h₁⟩ :=
            addBundle_total (h.resolve_left (List.cons_ne_nil _ _)) (hashQuickLower r.name)
          rw [hadd]
          exact ih _ (.inr h₁)
        next htype =>
          rw [if_neg (by simpa using htype)] at h
          exact ih _ h

/-- A layout without bundles has none to take the manifest of a new one from. -/
theorem newHashes_of_empty {rs : List ModResource} {modifiedChunks : Std.TreeSet ByteString}
    {m m' : LayoutManifest} (hempty : m.bundleInfo.toList = [])
    (h : addChunksAndBundles rs modifiedChunks m = .ok m') : newHashes rs = [] := by
  induction rs generalizing modifiedChunks m with
  | nil => rfl
  | cons r rs ih =>
      rw [newHashes, List.filter_cons]
      rw [addChunksAndBundles] at h
      split at h
      next htype =>
        rw [if_neg (by simp [htype])]
        split at h
        next => exact ih hempty h
        next =>
          split at h
          next => exact ih hempty h
          next => exact ih (m := m.addChunk _ _) hempty h
      next =>
        split at h
        next =>
          obtain ⟨m₁, hadd, -⟩ := bind_eq_ok h
          unfold addBundle at hadd
          split at hadd
          next hcontains =>
            rw [Std.TreeMap.contains_eq_isSome_getElem?, Option.isSome_iff_exists] at hcontains
            obtain ⟨info, hget⟩ := hcontains
            have hmem := Std.TreeMap.mem_toList_iff_getElem?_eq_some.mpr hget
            rw [hempty] at hmem
            cases hmem
          next =>
            rw [hempty] at hadd
            cases hadd
        next htype =>
          rw [if_neg (by simpa using htype)]
          exact ih hempty h

end LayoutManifest

/-- The layout's pass goes through when the aggregation describes the bundles of the
layout, and says nothing of those that the mods bring. -/
theorem mergeLayoutManifest_total {loader : Loader} {m : LayoutManifest} {entries : BundleEntries}
    (hheaded : LayoutManifest.newHashes loader.mods.modResources = [] ∨ m.Headed)
    (hplaced : LayoutManifest.Placed loader.vanilla m)
    (hcounted : m.Counted entries)
    (hnew : ∀ b ∈ LayoutManifest.newHashes loader.mods.modResources, m.bundleInfo[b]? = none →
      entries.at b = {} ∧ ∀ type name, loader.vanilla.position type name b = none)
    (hbacked : ∀ b, ∀ r ∈ loader.mods.resourcesOf b, LayoutManifest.Backed loader r) :
    ∃ m' entries', mergeLayoutManifest loader m entries = .ok (m', entries') := by
  obtain ⟨m₁, hadd⟩ := LayoutManifest.addChunksAndBundles_total loader.mods.modResources {} hheaded
  -- A new bundle has its manifest, and that is all the aggregation says of it.
  have hfits : ∀ (b : UInt32) (info : BundleInfo), m₁.bundleInfo[b]? = some info →
      (entries.at b).sectionEnd .chunk ≤ info.files.length ∧ ∀ type name position,
        loader.vanilla.position type name b = some position →
          position.toNat < info.files.length := by
    intro b info hget
    cases hb : m.bundleInfo[b]? with
    | some info₀ =>
        rw [LayoutManifest.addChunksAndBundles_some hadd hb] at hget
        cases hget
        exact ⟨hcounted b _ hb, hplaced b _ hb⟩
    | none =>
        have hadded := LayoutManifest.addChunksAndBundles_none hadd hb
        split at hadded
        next hmem =>
          obtain ⟨hat, hnone⟩ := hnew b hmem hb
          obtain ⟨header, hadded⟩ := hadded
          rw [hadded] at hget
          cases hget
          rw [hat]
          refine ⟨Nat.le_refl _, fun type name position hp => ?_⟩
          rw [hnone] at hp
          cases hp
        next =>
          rw [hadded] at hget
          cases hget
  have hplaced₁ : LayoutManifest.Placed loader.vanilla m₁ := fun b info hget =>
    (hfits b info hget).2
  have hcounted₁ : m₁.Counted entries := fun b info hget => (hfits b info hget).1
  obtain ⟨m₂, hmod, hg⟩ := LayoutManifest.modifyFiles_total loader.mods.modResources {} hplaced₁
  obtain ⟨m₃, e₃, hmerge⟩ := LayoutManifest.mergeBundles_total
    loader.mods.bundleResources.toList (hplaced₁.mono hg) (hcounted₁.mono hg) (by
      rintro ⟨b, rs⟩ hmem
      have hrs := hbacked b
      rw [FinalizedMods.resourcesOf, Std.TreeMap.getD_eq_getD_getElem?,
        Std.TreeMap.mem_toList_iff_getElem?_eq_some.mp hmem] at hrs
      exact hrs)
  refine ⟨m₃, e₃, ?_⟩
  rw [mergeLayoutManifest, hadd]
  show (LayoutManifest.modifyFiles loader.vanilla loader.mods.modResources {} m₁ >>= _) = _
  rw [hmod]
  exact hmerge

end Kyber.ModLoader
