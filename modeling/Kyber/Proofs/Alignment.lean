import Kyber.Proofs.Aggregation
import Kyber.Proofs.LayoutTotal

/-!
# The two passes side by side

The entries of a bundle are merged by one pass and its files by another, which never
see each other: one goes by names, rids and guids, the other by positions of the vanilla
aggregation; one remembers the ids it has seen in a bundle, the other the hashes of ids
and bundles; one adds at once, the other when the bundle is done.

`Aligned` is what they keep between them. In every round they leave the same resource
out, put the same resource in the same place, or add the same one: `modify_aligned` for
the loop over the mods' resources, `merge_aligned` for the loop over the bundle's.
-/

namespace Kyber.ModLoader

open Kyber.Lib

/-! ## Side by side -/

/-- The file is the data of the entry: an entry of the vanilla bundle with the file at its
place, the data of a resource of the mods, or a vanilla asset that a resource brings to
the bundle. -/
inductive DataOf (loader : Loader) (b : UInt32) (vanilla : BundleManifest)
    (files : List FileInfo) : Entry → FileInfo → Prop
  | vanilla {type : AssetType} {i : Nat} {e : Entry} {file : FileInfo}
      (entry : (vanilla.entries type)[i]? = some e)
      (hfile : files[vanilla.place type i]? = some file) :
      DataOf loader b vanilla files e file
  | mod {r : ModResource} {type : AssetType} (mem : r ∈ loader.mods.modResources)
      (htype : r.type.assetType = some type) (data : r.HasData) :
      DataOf loader b vanilla files (r.entry type) (r.bundleFile type)
  | unchanged {r : ModResource} {type : AssetType} {e : Entry} {file : FileInfo}
      (mem : r ∈ loader.mods.resourcesOf b) (htype : r.type.assetType = some type)
      (noData : ¬ r.HasData) (entry : unchangedEntry loader r type = some e)
      (hfile : LayoutManifest.unchangedFile loader r type = .ok (some file)) :
      DataOf loader b vanilla files e file

/-- The files of a type that wait to be added. -/
def added (deferred : List DeferredBundleFileAdd) (type : AssetType) : List FileInfo :=
  (deferred.filter (·.type = type)).map (·.file)

theorem added_concat (deferred : List DeferredBundleFileAdd) (type type' : AssetType)
    (file : FileInfo) :
    added (deferred ++ [⟨type, file⟩]) type'
      = if type' = type then added deferred type ++ [file] else added deferred type' := by
  unfold added
  rw [List.filter_append, List.map_append]
  by_cases h : type' = type
  · subst h
    simp
  · simp [h, Ne.symm h]

section Sections

variable (loader : Loader) (b : UInt32) (vanilla : BundleManifest) (files : List FileInfo)

/-- The two passes in the middle of a bundle: its files in the layout, in sections, and
those that wait, are the data of the entries of its manifest. The places of the vanilla
entries are still theirs. -/
structure Aligned (header : FileInfo) (m : LayoutManifest) (manifest : BundleManifest)
    (sections : AssetType → List FileInfo) (deferred : List DeferredBundleFileAdd) : Prop where
  layout : m.bundleInfo[b]? = some
    { hash := b, files := header :: flat AssetType.order sections }
  length : ∀ type, (sections type).length = (vanilla.entries type).length
  keys : ∀ (type : AssetType) (i : Nat) (e : Entry), (vanilla.entries type)[i]? = some e →
    ∃ e', (manifest.entries type)[i]? = some e' ∧ e'.key = e.key
  data : ∀ type, List.Forall₂ (DataOf loader b vanilla files) (manifest.entries type)
    (sections type ++ added deferred type)

end Sections

section Steps

variable {loader : Loader} {b : UInt32} {vanilla : BundleManifest} {files : List FileInfo}
  {header : FileInfo} {m m' : LayoutManifest} {manifest manifest' : BundleManifest}
  {sections : AssetType → List FileInfo} {deferred : List DeferredBundleFileAdd}
  {r : ModResource} {type : AssetType}

theorem Aligned.of_layout (h : Aligned loader b vanilla files header m manifest sections deferred)
    (hm : m'.bundleInfo[b]? = m.bundleInfo[b]?) :
    Aligned loader b vanilla files header m' manifest sections deferred where
  layout := by rw [hm, h.layout]
  length := h.length
  keys := h.keys
  data := h.data

/-- A resource with a position: its file and its entry are set at the same place. -/
theorem Aligned.set (h : Aligned loader b vanilla files header m manifest sections deferred)
    {i : Nat} {e : Entry} (he : (vanilla.entries type)[i]? = some e)
    (hkey : e.key = (r.entry type).key) (hr : r ∈ loader.mods.modResources)
    (htype : r.type.assetType = some type) (hdata : r.HasData)
    (hset : m.setFileInfo b (vanilla.place type i) (r.bundleFile type) = .ok m')
    (hentries : manifest'.entries = Function.update manifest.entries type
      ((manifest.entries type).set i (r.entry type))) :
    Aligned loader b vanilla files header m' manifest'
      (Function.update sections type ((sections type).set i (r.bundleFile type))) deferred := by
  have hi : i < (sections type).length := by
    rw [h.length]
    exact (List.getElem?_eq_some_iff.mp he).1
  constructor
  case layout =>
    obtain ⟨hnone, -⟩ | ⟨info, hget, -, rfl⟩ := LayoutManifest.setFileInfo_ok hset
    · rw [h.layout] at hnone
      cases hnone
    · rw [h.layout] at hget
      cases hget
      dsimp only
      rw [getElem?_insert_eq, if_pos rfl, flat_set AssetType.nodup_order _ type.mem_order hi,
        BundleManifest.place, ← start_congr h.length, Nat.add_comm 1, List.set_cons_succ]
  case length =>
    intro t
    by_cases ht : t = type
    · subst ht
      rw [Function.update_self, List.length_set, h.length]
    · rw [Function.update_of_ne ht, h.length]
  case keys =>
    intro t j e₀ he₀
    obtain ⟨e', he', hkey'⟩ := h.keys t j e₀ he₀
    rw [hentries]
    by_cases ht : t = type
    · subst ht
      rw [Function.update_self]
      by_cases hj : i = j
      · subst hj
        refine ⟨r.entry t, List.getElem?_set_self (List.getElem?_eq_some_iff.mp he').1, ?_⟩
        rw [he] at he₀
        cases he₀
        exact hkey.symm
      · exact ⟨e', by rw [List.getElem?_set_ne hj, he'], hkey'⟩
    · rw [Function.update_of_ne ht]
      exact ⟨e', he', hkey'⟩
  case data =>
    intro t
    rw [hentries]
    by_cases ht : t = type
    · subst ht
      rw [Function.update_self, Function.update_self, ← List.set_append_left _ _ hi]
      exact forall₂_set (h.data t) i (.mod hr htype hdata)
    · rw [Function.update_of_ne ht, Function.update_of_ne ht]
      exact h.data t

/-- An addition: the entry joins its section at once, and its file waits. -/
theorem Aligned.add (h : Aligned loader b vanilla files header m manifest sections deferred)
    {e : Entry} {file : FileInfo} (hdata : DataOf loader b vanilla files e file)
    (hentries : manifest'.entries = Function.update manifest.entries type
      (manifest.entries type ++ [e])) :
    Aligned loader b vanilla files header m manifest' sections (deferred ++ [⟨type, file⟩]) := by
  constructor
  case layout => exact h.layout
  case length => exact h.length
  case keys =>
    intro t j e₀ he₀
    obtain ⟨e', he', hkey'⟩ := h.keys t j e₀ he₀
    refine ⟨e', ?_, hkey'⟩
    rw [hentries]
    by_cases ht : t = type
    · subst ht
      rw [Function.update_self, List.getElem?_append_left (List.getElem?_eq_some_iff.mp he').1, he']
    · rw [Function.update_of_ne ht, he']
  case data =>
    intro t
    rw [hentries, added_concat]
    by_cases ht : t = type
    · subst ht
      rw [Function.update_self, if_pos rfl, ← List.append_assoc]
      exact List.rel_append (h.data t) (.cons hdata .nil)
    · rw [Function.update_of_ne ht, if_neg ht]
      exact h.data t

end Steps

/-! ## Modifications -/

namespace LayoutManifest

variable {r : ModResource} {file : FileInfo} {offsets : List (UInt32 × UInt32)}
  {modified modified' : Std.TreeSet UInt32} {m m' : LayoutManifest} {b : UInt32}

theorem mem_modifyInBundles (h : modifyInBundles r file offsets modified m = .ok (modified', m'))
    (x : UInt32) : x ∈ modified' ↔ x ∈ modified ∨
      ∃ p ∈ offsets, r.containsBundle p.1 = false ∧
        x = uniqueInBundle r.uniqueIdWithType p.1 := by
  induction offsets generalizing modified m with
  | nil =>
      cases h
      simp
  | cons offset offsets ih =>
      obtain ⟨b', index⟩ := offset
      rw [modifyInBundles] at h
      rw [List.exists_mem_cons_iff]
      split at h
      next hc =>
        rw [ih h]
        simp [hc]
      next hc =>
        dsimp only at h
        have hc' : r.containsBundle b' = false := Bool.not_eq_true _ ▸ hc
        split at h
        next hmem =>
          rw [ih h]
          have hin : uniqueInBundle r.uniqueIdWithType b' ∈ modified :=
            Std.TreeSet.mem_iff_contains.mpr hmem
          constructor
          · rintro (hx | hx)
            · exact .inl hx
            · exact .inr (.inr hx)
          · rintro (hx | ⟨-, rfl⟩ | hx)
            · exact .inl hx
            · exact .inl hin
            · exact .inr hx
        next =>
          obtain ⟨m₁, -, h⟩ := bind_eq_ok h
          rw [ih h, mem_insert_iff]
          simp only [hc', true_and]
          tauto

/-- A bundle that the resource is to be added to, or that its id has been seen in, is
left alone. -/
theorem modifyInBundles_untouched
    (hskip : ∀ p ∈ offsets, p.1 = b → r.containsBundle b = true ∨
      uniqueInBundle r.uniqueIdWithType b ∈ modified)
    (h : modifyInBundles r file offsets modified m = .ok (modified', m')) :
    m'.bundleInfo[b]? = m.bundleInfo[b]? := by
  induction offsets generalizing modified m with
  | nil =>
      cases h
      rfl
  | cons offset offsets ih =>
      obtain ⟨b', index⟩ := offset
      rw [modifyInBundles] at h
      have hrest := fun p hp => hskip p (List.mem_cons_of_mem _ hp)
      split at h
      next => exact ih hrest h
      next hc =>
        dsimp only at h
        split at h
        next => exact ih hrest h
        next hnew =>
          obtain ⟨m₁, hset, h⟩ := bind_eq_ok h
          have hne : b ≠ b' := by
            rintro rfl
            rcases hskip _ List.mem_cons_self rfl with hc' | hmem
            · exact hc hc'
            · exact hnew (Std.TreeSet.mem_iff_contains.mp hmem)
          rw [ih ?_ h, setFileInfo_frame hset hne]
          intro p hp hb
          exact (hrest p hp hb).imp_right fun hmem => (mem_insert_iff _ _ _).mpr (.inr hmem)

/-- Another bundle's file is set at the position there. -/
theorem modifyInBundles_set {index : UInt32} (hnodup : (offsets.map Prod.fst).Nodup)
    (hmem : (b, index) ∈ offsets) (hc : r.containsBundle b = false)
    (hnew : uniqueInBundle r.uniqueIdWithType b ∉ modified)
    (hinj : ∀ p ∈ offsets, uniqueInBundle r.uniqueIdWithType p.1
      = uniqueInBundle r.uniqueIdWithType b → p.1 = b)
    (h : modifyInBundles r file offsets modified m = .ok (modified', m')) :
    ∃ m₁ m₂ : LayoutManifest, m₁.bundleInfo[b]? = m.bundleInfo[b]? ∧
      m₁.setFileInfo b index.toNat file = .ok m₂ ∧ m'.bundleInfo[b]? = m₂.bundleInfo[b]? := by
  induction offsets generalizing modified m with
  | nil => cases hmem
  | cons offset offsets ih =>
      obtain ⟨b', index'⟩ := offset
      rw [List.map_cons, List.nodup_cons] at hnodup
      rw [modifyInBundles] at h
      rcases List.mem_cons.mp hmem with heq | hlater
      · cases heq
        rw [if_neg (by simp [hc])] at h
        dsimp only at h
        rw [if_neg fun hcon => hnew (Std.TreeSet.mem_iff_contains.mpr hcon)] at h
        obtain ⟨m₁, hset, h⟩ := bind_eq_ok h
        refine ⟨m, m₁, rfl, hset, modifyInBundles_untouched ?_ h⟩
        rintro p hp rfl
        exact absurd (List.mem_map.mpr ⟨p, hp, rfl⟩) hnodup.1
      · have hne : b ≠ b' := by
          rintro rfl
          exact hnodup.1 (List.mem_map.mpr ⟨_, hlater, rfl⟩)
        have hinj' := fun p hp => hinj p (List.mem_cons_of_mem _ hp)
        split at h
        next => exact ih hnodup.2 hlater hnew hinj' h
        next =>
          dsimp only at h
          split at h
          next => exact ih hnodup.2 hlater hnew hinj' h
          next =>
            obtain ⟨m₁, hset, h⟩ := bind_eq_ok h
            obtain ⟨m₂, m₃, hget, hset', hget'⟩ := ih hnodup.2 hlater (by
              rw [mem_insert_iff, not_or]
              exact ⟨fun heq => hne (hinj _ List.mem_cons_self heq.symm).symm, hnew⟩) hinj' h
            exact ⟨m₂, m₃, hget.trans (setFileInfo_frame hset hne), hset', hget'⟩

/-- One round of the layout's loop over the mods' resources, as one bundle sees it. -/
structure ModifyRound (vanilla : VanillaTables) (b : UInt32) (r : ModResource)
    (modified : Std.TreeSet UInt32) (m : LayoutManifest) (modified' : Std.TreeSet UInt32)
    (m' : LayoutManifest) : Prop where
  modified_iff : ∀ x, x ∈ modified' ↔ x ∈ modified ∨
    ∃ type b', r.type.assetType = some type ∧ (vanilla.position type r.name b').isSome ∧
      r.containsBundle b' = false ∧ x = uniqueInBundle r.uniqueIdWithType b'
  untouched : (∀ type, r.type.assetType = some type →
      (vanilla.position type r.name b).isSome → r.containsBundle b = true ∨
        uniqueInBundle r.uniqueIdWithType b ∈ modified) →
    m'.bundleInfo[b]? = m.bundleInfo[b]?
  set : ∀ type index, r.type.assetType = some type →
    vanilla.position type r.name b = some index → r.containsBundle b = false →
    uniqueInBundle r.uniqueIdWithType b ∉ modified →
    (∀ b', (vanilla.position type r.name b').isSome →
      uniqueInBundle r.uniqueIdWithType b' = uniqueInBundle r.uniqueIdWithType b → b' = b) →
    ∃ m₁ m₂ : LayoutManifest, m₁.bundleInfo[b]? = m.bundleInfo[b]? ∧
      m₁.setFileInfo b index.toNat (r.bundleFile type) = .ok m₂ ∧
      m'.bundleInfo[b]? = m₂.bundleInfo[b]?

theorem modifyFiles_round {vanilla : VanillaTables} {rs : List ModResource} (b : UInt32)
    (hdata : r.HasData) (h : modifyFiles vanilla (r :: rs) modified m = .ok m') :
    ∃ modified₁ m₁, ModifyRound vanilla b r modified m modified₁ m₁ ∧
      modifyFiles vanilla rs modified₁ m₁ = .ok m' := by
  rw [modifyFiles, if_neg (by simpa [not_or] using ⟨hdata.2, hdata.1⟩)] at h
  split at h
  next htype =>
    refine ⟨modified, m, ⟨fun x => ?_, fun _ => rfl, ?_⟩, h⟩
    · simp [htype]
    · simp [htype]
  next type htype =>
    split at h
    next hoffsets =>
      refine ⟨modified, m, ⟨fun x => ?_, fun _ => rfl, ?_⟩, h⟩
      · simp [htype, VanillaTables.position, hoffsets]
      · intro type' index htype' hposition
        rw [htype] at htype'
        cases htype'
        rw [VanillaTables.position, hoffsets] at hposition
        cases hposition
    next offsets hoffsets =>
      obtain ⟨⟨modified₁, m₁⟩, hmod, h⟩ := bind_eq_ok h
      refine ⟨modified₁, m₁, ⟨fun x => ?_, fun hskip => ?_, ?_⟩, h⟩
      · rw [mem_modifyInBundles hmod]
        refine or_congr_right ⟨?_, ?_⟩
        · rintro ⟨p, hp, hc, hx⟩
          exact ⟨type, p.1, htype, by rw [position_of_mem_offsets hoffsets hp]; rfl, hc, hx⟩
        · rintro ⟨type', b', htype', hsome, hc, hx⟩
          rw [htype] at htype'
          cases htype'
          obtain ⟨index, hindex⟩ := Option.isSome_iff_exists.mp hsome
          rw [VanillaTables.position, hoffsets] at hindex
          exact ⟨(b', index), Std.TreeMap.mem_toList_iff_getElem?_eq_some.mpr hindex, hc, hx⟩
      · refine modifyInBundles_untouched ?_ hmod
        rintro p hp rfl
        exact hskip type htype (by rw [position_of_mem_offsets hoffsets hp]; rfl)
      · intro type' index htype' hposition hc hnew hinj
        rw [htype] at htype'
        cases htype'
        have hmem := hposition
        rw [VanillaTables.position, hoffsets] at hmem
        refine modifyInBundles_set (keys_nodup _)
          (Std.TreeMap.mem_toList_iff_getElem?_eq_some.mpr hmem) hc hnew ?_ hmod
        intro p hp hx
        exact hinj p.1 (by rw [position_of_mem_offsets hoffsets hp]; rfl) hx

end LayoutManifest

/-- The layout's pass has seen an id in the bundle when the manifest's pass has seen it. -/
def Decided (loader : Loader) (b : UInt32) (modified visited : Std.TreeSet UInt32) : Prop :=
  ∀ r ∈ loader.mods.modResources, ∀ type, r.type.assetType = some type →
    (loader.vanilla.position type r.name b).isSome →
      (uniqueInBundle r.uniqueIdWithType b ∈ modified ↔ r.uniqueIdWithType ∈ visited)

section Modify

variable {loader : Loader} {b : UInt32} {entry : BundleEntry} {vanilla : BundleManifest}
  {files : List FileInfo} {header : FileInfo} {m m' : LayoutManifest}
  {manifest manifest' : BundleManifest} {sections : AssetType → List FileInfo}
  {deferred : List DeferredBundleFileAdd} {r : ModResource} {type : AssetType}
  {modified modified' visited : Std.TreeSet UInt32}

/-- The first entry that is found is the one at the vanilla place. -/
theorem Aligned.modifyFirst_eq
    (h : Aligned loader b vanilla files header m manifest sections deferred)
    {found : EntryKey → Bool} {i : Nat} {e : Entry} (he : (vanilla.entries type)[i]? = some e)
    (hfound : found e.key = true)
    (hbefore : ∀ j < i, ∀ e', (vanilla.entries type)[j]? = some e' → found e'.key = false)
    (new : Entry) :
    modifyFirst (fun e => found e.key) (fun _ => new) (manifest.entries type)
      = (manifest.entries type).set i new := by
  obtain ⟨e', he', hkey⟩ := h.keys type i e he
  refine modifyFirst_eq_set new he' (by rw [hkey, hfound]) ?_
  intro j hj x hx
  have hlt : j < (vanilla.entries type).length :=
    Nat.lt_trans hj (List.getElem?_eq_some_iff.mp he).1
  obtain ⟨x', hx', hkey'⟩ := h.keys type j _ (List.getElem?_eq_getElem hlt)
  rw [hx] at hx'
  cases hx'
  rw [hkey']
  exact hbefore j hj _ (List.getElem?_eq_getElem hlt)

/-- What the round adds to the layout's set, at the ids of the bundle. -/
theorem ModifyRound.mem_iff (hcons : Consistent loader)
    (hround : LayoutManifest.ModifyRound loader.vanilla b r modified m modified' m')
    (hr : r ∈ loader.mods.modResources) {r' : ModResource} (hr' : r' ∈ loader.mods.modResources)
    {type' : AssetType} (htype' : r'.type.assetType = some type')
    (hsome : (loader.vanilla.position type' r'.name b).isSome) :
    uniqueInBundle r'.uniqueIdWithType b ∈ modified' ↔
      uniqueInBundle r'.uniqueIdWithType b ∈ modified ∨
        (r'.uniqueIdWithType = r.uniqueIdWithType ∧ r.containsBundle b = false) := by
  rw [hround.modified_iff]
  refine or_congr_right ⟨?_, ?_⟩
  · rintro ⟨type, b', htype, hsome', hc, hx⟩
    obtain ⟨hid, rfl⟩ := hcons.inBundles r' hr' r hr type' type b b' htype' htype hsome hsome' hx
    exact ⟨hid, hc⟩
  · rintro ⟨hid, hc⟩
    obtain ⟨htype, hposition⟩ := hcons.position_eq hr' hr hid htype' b
    exact ⟨type', b, htype, by rwa [← hposition], hc, by rw [hid]⟩

/-- A resource with data that changes the bundle: both passes set it at its place. -/
theorem Aligned.modify
    (h : Aligned loader b vanilla files header m manifest sections deferred)
    (hagg : AggregatedBundle loader.vanilla b entry vanilla) (hcons : Consistent loader)
    (hr : r ∈ loader.mods.modResources) (htype : r.type.assetType = some type)
    (hdata : r.HasData) {index : UInt32}
    (hposition : loader.vanilla.position type r.name b = some index)
    (hset : m.setFileInfo b index.toNat (r.bundleFile type) = .ok m')
    (hentries : (∃ found : EntryKey → Bool, (found = r.names ∨ found = r.finds) ∧
      manifest'.entries = Function.update manifest.entries type
        (modifyFirst (fun e => found e.key) (fun _ => r.entry type) (manifest.entries type)))) :
    ∃ sections', Aligned loader b vanilla files header m' manifest' sections' deferred ∧
      ∃ i < (vanilla.entries type).length, manifest'.entries
        = Function.update manifest.entries type ((manifest.entries type).set i (r.entry type)) := by
  obtain ⟨i, e, he, hplace, hkey, hbefore⟩ :=
    found_of_position hagg hcons hr htype hdata hposition
  obtain ⟨found, hwhich, hentries⟩ := hentries
  have hown : found e.key = true := by
    rw [hkey]
    rcases hwhich with rfl | rfl
    · exact (names_own r type).1
    · exact (names_own r type).2
  have hearlier : ∀ j < i, ∀ e', (vanilla.entries type)[j]? = some e' → found e'.key = false := by
    intro j hj e' he'
    rcases hwhich with rfl | rfl
    · exact (hbefore j hj e' he').1
    · exact (hbefore j hj e' he').2
  rw [h.modifyFirst_eq he hown hearlier] at hentries
  rw [hplace] at hset
  exact ⟨_, h.set he hkey hr htype hdata hset hentries, i, (List.getElem?_eq_some_iff.mp he).1,
    hentries⟩

/-- One round of the manifest's loop over the mods' resources, for a resource with data. -/
inductive EntryRound (loader : Loader) (b : UInt32) (r : ModResource)
    (visited : Std.TreeSet UInt32) (manifest : BundleManifest) :
    Std.TreeSet UInt32 → BundleManifest → Prop
  /-- The bundle gets the resource later. -/
  | later (contains : r.containsBundle b = true) :
      EntryRound loader b r visited manifest visited manifest
  | seen (mem : r.uniqueIdWithType ∈ visited) :
      EntryRound loader b r visited manifest visited manifest
  /-- The asset is not in the vanilla bundle. -/
  | absent (contains : r.containsBundle b = false) (new : r.uniqueIdWithType ∉ visited)
      (position : ∀ type, r.type.assetType = some type →
        loader.vanilla.position type r.name b = none) :
      EntryRound loader b r visited manifest (visited.insert r.uniqueIdWithType) manifest
  | modified {type : AssetType} {index : UInt32} {manifest' : BundleManifest}
      (contains : r.containsBundle b = false) (new : r.uniqueIdWithType ∉ visited)
      (htype : r.type.assetType = some type)
      (position : loader.vanilla.position type r.name b = some index)
      (modify : manifest.modifyWith r type = .ok manifest') :
      EntryRound loader b r visited manifest (visited.insert r.uniqueIdWithType) manifest'

theorem modifyEntries_round {rs : List ModResource} (hdata : r.HasData)
    (h : BundleManifest.modifyEntries loader b (r :: rs) visited manifest = .ok manifest') :
    ∃ visited₁ manifest₁, EntryRound loader b r visited manifest visited₁ manifest₁ ∧
      BundleManifest.modifyEntries loader b rs visited₁ manifest₁ = .ok manifest' := by
  have hnoskip : ¬ (r.resourceIndex = -1 ∨ r.handlerHash ≠ 0) := by
    rw [not_or, not_not]
    exact ⟨hdata.2, hdata.1⟩
  rw [BundleManifest.modifyEntries, if_neg hnoskip] at h
  split at h
  next hc => exact ⟨visited, manifest, .later hc, h⟩
  next hc =>
    have hc' : r.containsBundle b = false := Bool.not_eq_true _ ▸ hc
    split at h
    next hseen => exact ⟨visited, manifest, .seen (Std.TreeSet.mem_iff_contains.mpr hseen), h⟩
    next hseen =>
      have hnew : r.uniqueIdWithType ∉ visited := fun hmem =>
        hseen (Std.TreeSet.mem_iff_contains.mp hmem)
      cases htype : r.type.assetType with
      | none =>
          rw [htype] at h
          exact ⟨_, manifest, .absent hc' hnew (by simp [htype]), h⟩
      | some type =>
          rw [htype] at h
          dsimp only at h
          cases hposition : loader.vanilla.position type r.name b with
          | none =>
              rw [hposition] at h
              refine ⟨_, manifest, .absent hc' hnew fun type' htype' => ?_, h⟩
              rw [htype] at htype'
              cases htype'
              exact hposition
          | some index =>
              rw [hposition] at h
              obtain ⟨manifest₁, hmod, h⟩ := bind_eq_ok h
              exact ⟨_, manifest₁, .modified hc' hnew htype hposition hmod, h⟩

/-- The two rounds see the same ids in the bundle. -/
theorem Decided.round {visited' : Std.TreeSet UInt32} (hdec : Decided loader b modified visited)
    (hcons : Consistent loader) (hr : r ∈ loader.mods.modResources)
    (hround : LayoutManifest.ModifyRound loader.vanilla b r modified m modified' m')
    (hround' : EntryRound loader b r visited manifest visited' manifest') :
    Decided loader b modified' visited' := by
  intro r' hr' type htype hsome
  rw [ModifyRound.mem_iff hcons hround hr hr' htype hsome, hdec r' hr' type htype hsome]
  cases hround' with
  | later hc => simp [hc]
  | seen hmem =>
      refine or_iff_left_of_imp ?_
      rintro ⟨hid, -⟩
      rw [hid]
      exact hmem
  | absent hc =>
      rw [mem_insert_iff, hc, or_comm]
      simp
  | modified hc =>
      rw [mem_insert_iff, hc, or_comm]
      simp

/-- The two rounds leave the bundle alone, or set the resource at its place. -/
theorem Aligned.round {visited' : Std.TreeSet UInt32}
    (h : Aligned loader b vanilla files header m manifest sections deferred)
    (hdec : Decided loader b modified visited)
    (hagg : AggregatedBundle loader.vanilla b entry vanilla) (hcons : Consistent loader)
    (hr : r ∈ loader.mods.modResources) (hdata : r.HasData)
    (hround : LayoutManifest.ModifyRound loader.vanilla b r modified m modified' m')
    (hround' : EntryRound loader b r visited manifest visited' manifest') :
    ∃ sections', Aligned loader b vanilla files header m' manifest' sections' deferred := by
  cases hround' with
  | later hc => exact ⟨sections, h.of_layout (hround.untouched fun _ _ _ => .inl hc)⟩
  | seen hmem =>
      exact ⟨sections, h.of_layout (hround.untouched fun type htype hsome =>
        .inr ((hdec r hr type htype hsome).mpr hmem))⟩
  | absent _ _ hposition =>
      refine ⟨sections, h.of_layout (hround.untouched fun type htype hsome => ?_)⟩
      rw [hposition type htype] at hsome
      cases hsome
  | @modified type index _ hc hnew htype hposition hmod =>
      have hsome : (loader.vanilla.position type r.name b).isSome := by
        rw [hposition]
        rfl
      obtain ⟨m₁, m₂, hget, hset, hget'⟩ := hround.set type index htype hposition hc
        (fun hmem => hnew ((hdec r hr type htype hsome).mp hmem))
        fun b' hsome' hx =>
          (hcons.inBundles r hr r hr type type b' b htype htype hsome' hsome hx).2
      obtain ⟨sections', h', -⟩ := (h.of_layout hget).modify hagg hcons hr htype hdata
        hposition hset ⟨r.names, .inl rfl, BundleManifest.modifyWith_entries hmod⟩
      exact ⟨sections', h'.of_layout hget'⟩

theorem modify_aligned (hagg : AggregatedBundle loader.vanilla b entry vanilla)
    (hcons : Consistent loader) {rs : List ModResource}
    (hrs : ∀ r ∈ rs, r ∈ loader.mods.modResources) (hdec : Decided loader b modified visited)
    (h : Aligned loader b vanilla files header m manifest sections deferred)
    (hfiles : LayoutManifest.modifyFiles loader.vanilla rs modified m = .ok m')
    (hentries : BundleManifest.modifyEntries loader b rs visited manifest = .ok manifest') :
    ∃ sections', Aligned loader b vanilla files header m' manifest' sections' deferred := by
  induction rs generalizing modified visited m manifest sections with
  | nil =>
      cases hfiles
      cases hentries
      exact ⟨sections, h⟩
  | cons r rs ih =>
      have hr := hrs r List.mem_cons_self
      have hrs := fun r' hr' => hrs r' (List.mem_cons_of_mem r hr')
      by_cases hdata : r.HasData
      case neg =>
        -- Neither pass looks at a resource without data here.
        have hskip : r.resourceIndex = -1 ∨ r.handlerHash ≠ 0 := by
          by_contra hcon
          rw [not_or, not_not] at hcon
          exact hdata ⟨hcon.2, hcon.1⟩
        rw [LayoutManifest.modifyFiles, if_pos hskip] at hfiles
        rw [BundleManifest.modifyEntries, if_pos hskip, ite_self] at hentries
        exact ih hrs hdec h hfiles hentries
      case pos =>
        obtain ⟨modified₁, m₁, hround, hfiles⟩ := LayoutManifest.modifyFiles_round b hdata hfiles
        obtain ⟨visited₁, manifest₁, hround', hentries⟩ := modifyEntries_round hdata hentries
        obtain ⟨sections₁, h₁⟩ := h.round hdec hagg hcons hr hdata hround hround'
        exact ih hrs (hdec.round hcons hr hround hround') h₁ hfiles hentries

end Modify

/-! ## Additions -/

/-- An entry that a resource adds to its section. -/
def AddedBy (loader : Loader) (r : ModResource) (type : AssetType) (e : Entry) : Prop :=
  r.type.assetType = some type ∧
    (r.HasData ∧ e = r.entry type ∨ unchangedEntry loader r type = some e)

/-- None of the resources is taken for one that was added before. -/
def Fresh (vanilla manifest : BundleManifest) (rs : List ModResource) : Prop :=
  ∀ r ∈ rs, ∀ type, r.type.assetType = some type → r.HasData → ∀ (j : Nat) (e : Entry),
    (vanilla.entries type).length ≤ j → (manifest.entries type)[j]? = some e →
      r.finds e.key = false

section Add

variable {loader : Loader} {b : UInt32} {entry : BundleEntry} {vanilla : BundleManifest}
  {files : List FileInfo} {header : FileInfo} {m m' : LayoutManifest}
  {manifest manifest' : BundleManifest} {sections : AssetType → List FileInfo}
  {deferred deferred' : List DeferredBundleFileAdd} {r : ModResource} {type : AssetType}

/-- A resource is not taken for what a resource of another id has added. -/
theorem not_finds_added (hcons : Consistent loader) {r' : ModResource}
    (hr : r ∈ loader.mods.modResources) (hr' : r' ∈ loader.mods.modResources)
    (hid : r.uniqueIdWithType ≠ r'.uniqueIdWithType) (htype' : r'.type.assetType = some type)
    (hdata' : r'.HasData) {e : Entry} (hadded : AddedBy loader r type e) :
    r'.finds e.key = false := by
  obtain ⟨htype, hadded⟩ := hadded
  rw [← Bool.not_eq_true]
  intro hfinds
  refine hid ?_
  cases type with
  | ebx =>
      have hsame : r.type = r'.type := by rw [assetType_ebx htype, assetType_ebx htype']
      refine hcons.eq_id hr hr' hsame ?_
      rcases hadded with ⟨-, rfl⟩ | hadded
      · exact beq_iff_eq.mp hfinds
      · obtain ⟨original, -, rfl⟩ := Option.map_eq_some_iff.mp hadded
        exact beq_iff_eq.mp hfinds
  | res =>
      have hsame : r.type = r'.type := by rw [assetType_res htype, assetType_res htype']
      rcases hadded with ⟨hdata, rfl⟩ | hadded
      · exact hcons.rid_mods r hr r' hr' (assetType_res htype) (assetType_res htype') hdata hdata'
          (beq_iff_eq.mp hfinds)
      · obtain ⟨original, hget, rfl⟩ := Option.map_eq_some_iff.mp hadded
        exact hcons.eq_id hr hr' hsame
          ((hcons.rid_vanilla r' hr' (assetType_res htype') hdata' _ original hget).mp
            (beq_iff_eq.mp hfinds))
  | chunk =>
      refine hcons.guids r hr r' hr' (assetType_chunk htype) (assetType_chunk htype') ?_
      rcases hadded with ⟨-, rfl⟩ | hadded
      · exact beq_iff_eq.mp hfinds
      · obtain ⟨original, -, rfl⟩ := Option.map_eq_some_iff.mp hadded
        exact beq_iff_eq.mp hfinds

/-- A resource without a position is not found at all. -/
theorem Aligned.not_found (h : Aligned loader b vanilla files header m manifest sections deferred)
    (hagg : AggregatedBundle loader.vanilla b entry vanilla) (hcons : Consistent loader)
    (hr : r ∈ loader.mods.modResources) (htype : r.type.assetType = some type)
    (hdata : r.HasData) (hposition : loader.vanilla.position type r.name b = none)
    {rs : List ModResource} (hfresh : Fresh vanilla manifest (r :: rs)) :
    (manifest.entries type).any (fun e => r.finds e.key) = false := by
  rw [List.any_eq_false]
  intro e he hfinds
  obtain ⟨j, hj⟩ := List.mem_iff_getElem?.mp he
  by_cases hlt : j < (vanilla.entries type).length
  · obtain ⟨e', he', hkey⟩ := h.keys type j _ (List.getElem?_eq_getElem hlt)
    rw [hj] at he'
    cases he'
    rw [hkey] at hfinds
    obtain ⟨position, hsome, -⟩ := position_of_found hagg hcons hr htype hdata
      (List.getElem?_eq_getElem hlt) (.inr hfinds)
    rw [hposition] at hsome
    cases hsome
  · rw [hfresh r List.mem_cons_self type htype hdata j e (Nat.not_lt.mp hlt) hj] at hfinds
    cases hfinds

/-- A resource with a position is found. -/
theorem Aligned.found (h : Aligned loader b vanilla files header m manifest sections deferred)
    (hagg : AggregatedBundle loader.vanilla b entry vanilla) (hcons : Consistent loader)
    (hr : r ∈ loader.mods.modResources) (htype : r.type.assetType = some type)
    (hdata : r.HasData) {index : UInt32}
    (hposition : loader.vanilla.position type r.name b = some index) :
    (manifest.entries type).any (fun e => r.finds e.key) = true := by
  obtain ⟨i, e, he, -, hkey, -⟩ := found_of_position hagg hcons hr htype hdata hposition
  obtain ⟨e', he', hkey'⟩ := h.keys type i e he
  refine List.any_eq_true.mpr ⟨e', List.mem_of_getElem? he', ?_⟩
  rw [hkey', hkey]
  exact (names_own r type).2

theorem getElem?_concat {α : Type} {l : List α} {a x : α} {j : Nat}
    (h : (l ++ [a])[j]? = some x) : l[j]? = some x ∨ x = a := by
  rw [List.getElem?_append] at h
  split at h
  next => exact .inl h
  next =>
    rw [List.getElem?_singleton] at h
    split at h
    next =>
      cases h
      exact .inr rfl
    next => cases h

/-- What stands behind the vanilla entries was there, or is what the resource adds. -/
def Behind (loader : Loader) (vanilla : BundleManifest) (r : ModResource)
    (manifest manifest' : BundleManifest) : Prop :=
  ∀ (type : AssetType) (j : Nat) (e : Entry), (vanilla.entries type).length ≤ j →
    (manifest'.entries type)[j]? = some e →
      (manifest.entries type)[j]? = some e ∨ AddedBy loader r type e

theorem behind_set {i : Nat} (hi : i < (vanilla.entries type).length) {e : Entry}
    (hentries : manifest'.entries = Function.update manifest.entries type
      ((manifest.entries type).set i e)) : Behind loader vanilla r manifest manifest' := by
  intro t j x hj hx
  rw [hentries] at hx
  by_cases ht : t = type
  · subst ht
    rw [Function.update_self, List.getElem?_set_ne (by omega)] at hx
    exact .inl hx
  · rw [Function.update_of_ne ht] at hx
    exact .inl hx

theorem behind_concat {e : Entry} (hadded : AddedBy loader r type e)
    (hentries : manifest'.entries = Function.update manifest.entries type
      (manifest.entries type ++ [e])) : Behind loader vanilla r manifest manifest' := by
  intro t j x hj hx
  rw [hentries] at hx
  by_cases ht : t = type
  · subst ht
    rw [Function.update_self] at hx
    rcases getElem?_concat hx with hold | rfl
    · exact .inl hold
    · exact .inr hadded
  · rw [Function.update_of_ne ht] at hx
    exact .inl hx

theorem behind_refl (hentries : manifest'.entries = manifest.entries) :
    Behind loader vanilla r manifest manifest' := by
  intro t j x _ hx
  rw [hentries] at hx
  exact .inl hx

/-- One resource of the bundle: both passes do the same with it. -/
theorem Aligned.merge (h : Aligned loader b vanilla files header m manifest sections deferred)
    (hagg : AggregatedBundle loader.vanilla b entry vanilla) (hcons : Consistent loader)
    (hr : r ∈ loader.mods.modResources) (hrb : r ∈ loader.mods.resourcesOf b)
    {rs : List ModResource} (hfresh : Fresh vanilla manifest (r :: rs))
    (hfile : LayoutManifest.addFile loader b r deferred m = .ok (deferred', m'))
    (hentry : BundleManifest.addEntry loader r manifest = .ok manifest') :
    ∃ sections', Aligned loader b vanilla files header m' manifest' sections' deferred' ∧
      Behind loader vanilla r manifest manifest' := by
  unfold BundleManifest.addEntry at hentry
  cases LayoutManifest.addFile_ok hfile with
  | ignored _ why =>
      have hsame : manifest' = manifest := by
        rcases why with hnone | ⟨hno, htype, hget⟩
        · rw [hnone] at hentry
          cases hentry
          rfl
        · rw [htype] at hentry
          dsimp only at hentry
          rw [if_neg hno, BundleManifest.addUnchanged, hget] at hentry
          cases hentry
          rfl
      rw [hsame]
      exact ⟨sections, h, behind_refl rfl⟩
  | modified htype hdata hposition hset =>
      rw [htype] at hentry
      dsimp only at hentry
      rw [if_pos hdata] at hentry
      have hentries := BundleManifest.addWith_entries hentry
      rw [if_pos (h.found hagg hcons hr htype hdata hposition)] at hentries
      obtain ⟨sections', h', i, hi, hset'⟩ := h.modify hagg hcons hr htype hdata hposition hset
        ⟨r.finds, .inr rfl, hentries⟩
      exact ⟨sections', h', behind_set hi hset'⟩
  | added htype hdata hposition =>
      rw [htype] at hentry
      dsimp only at hentry
      rw [if_pos hdata] at hentry
      have hentries := BundleManifest.addWith_entries hentry
      rw [if_neg (by simp [h.not_found hagg hcons hr htype hdata hposition hfresh])] at hentries
      exact ⟨sections, h.add (.mod hr htype hdata) hentries,
        behind_concat ⟨htype, .inl ⟨hdata, rfl⟩⟩ hentries⟩
  | unchanged htype hno hunchanged =>
      rw [htype] at hentry
      dsimp only at hentry
      rw [if_neg hno] at hentry
      obtain ⟨hnone, -⟩ | ⟨f, e, hf, he, hentries⟩ :=
        BundleManifest.addUnchanged_entries hunchanged hentry
      · cases hnone
      · cases hf
        exact ⟨sections, h.add (.unchanged hrb htype hno he hunchanged) hentries,
          behind_concat ⟨htype, .inr he⟩ hentries⟩

theorem merge_aligned (hagg : AggregatedBundle loader.vanilla b entry vanilla)
    (hcons : Consistent loader) {rs : List ModResource}
    (hrs : ∀ r ∈ rs, r ∈ loader.mods.modResources ∧ r ∈ loader.mods.resourcesOf b)
    (hnodup : (rs.map (·.uniqueIdWithType)).Nodup) (hfresh : Fresh vanilla manifest rs)
    (h : Aligned loader b vanilla files header m manifest sections deferred)
    (hfiles : LayoutManifest.addFiles loader b rs deferred m = .ok (deferred', m'))
    (hentries : BundleManifest.addEntries loader rs manifest = .ok manifest') :
    ∃ sections', Aligned loader b vanilla files header m' manifest' sections' deferred' := by
  induction rs generalizing m manifest sections deferred with
  | nil =>
      cases hfiles
      cases hentries
      exact ⟨sections, h⟩
  | cons r rs ih =>
      obtain ⟨⟨deferred₁, m₁⟩, hfile, hfiles⟩ := bind_eq_ok hfiles
      obtain ⟨manifest₁, hentry, hentries⟩ := bind_eq_ok hentries
      rw [List.map_cons, List.nodup_cons] at hnodup
      obtain ⟨hr, hrb⟩ := hrs r List.mem_cons_self
      obtain ⟨sections₁, h₁, hbehind⟩ := h.merge hagg hcons hr hrb hfresh hfile hentry
      refine ih (fun r' hr' => hrs r' (List.mem_cons_of_mem r hr')) hnodup.2 ?_ h₁ hfiles hentries
      intro r' hr' type htype hdata j e hj he
      rcases hbehind type j e hj he with hold | hadded
      · exact hfresh r' (List.mem_cons_of_mem r hr') type htype hdata j e hj hold
      · refine not_finds_added hcons hr (hrs r' (List.mem_cons_of_mem r hr')).1 ?_ htype hdata hadded
        intro hid
        exact hnodup.1 (List.mem_map.mpr ⟨r', hr', hid.symm⟩)

end Add

end Kyber.ModLoader
