import Kyber.Proofs.Alignment
import Kyber.Proofs.Finalize

/-!
# The two merged manifests agree

The game takes the data of a bundle's `i`-th entry from the bundle's `i`-th file. What
the two passes have kept in step is put together here: the files that wait go to the
ends of their sections, where the entries they belong to have been all the time.

`AddFileToBundle` turns files away from a bundle that has very many, while the bundle's
manifest takes every entry. So the manifests agree as long as the bundle stays below
those limits.
-/

namespace Kyber.ModLoader

open Kyber.Lib

/-! ## The additions that were deferred -/

/-- The sections with what waits for them. -/
def withAdded (sections : AssetType → List FileInfo) (deferred : List DeferredBundleFileAdd)
    (type : AssetType) : List FileInfo := sections type ++ added deferred type

theorem withAdded_nil (sections : AssetType → List FileInfo) :
    withAdded sections [] = sections := by
  funext type
  simp [withAdded, added]

theorem withAdded_cons (sections : AssetType → List FileInfo) (add : DeferredBundleFileAdd)
    (deferred : List DeferredBundleFileAdd) :
    withAdded sections (add :: deferred)
      = withAdded (Function.update sections add.type (sections add.type ++ [add.file])) deferred := by
  funext type
  unfold withAdded added
  by_cases h : type = add.type
  · subst h
    simp
  · rw [Function.update_of_ne h, List.filter_cons_of_neg (by simpa using Ne.symm h)]

theorem length_withAdded (sections : AssetType → List FileInfo)
    (deferred : List DeferredBundleFileAdd) :
    (flat AssetType.order (withAdded sections deferred)).length
      = (flat AssetType.order sections).length + deferred.length := by
  induction deferred generalizing sections with
  | nil =>
      rw [withAdded_nil]
      rfl
  | cons add deferred ih =>
      rw [withAdded_cons, ih, flat_concat AssetType.nodup_order _ add.type.mem_order,
        List.length_insertIdx_of_le_length
          (start_add_length_le AssetType.nodup_order _ add.type.mem_order), List.length_cons]
      omega

theorem sectionEnd_eq {entry : BundleEntry} {sections : AssetType → List FileInfo}
    (h : ∀ type, (entry.sectionCount type).toNat = (sections type).length) (type : AssetType) :
    entry.sectionEnd type
      = start AssetType.order sections type + (sections type).length + 1 := by
  have hebx := h .ebx
  have hres := h .res
  have hchunk := h .chunk
  simp only [BundleEntry.sectionCount] at hebx hres hchunk
  cases type with
  | ebx =>
      rw [BundleEntry.sectionEnd, hebx]
      simp [start, flat, AssetType.order]
      omega
  | res =>
      rw [BundleEntry.sectionEnd, hebx, hres]
      simp [start, flat, AssetType.order]
      omega
  | chunk =>
      rw [BundleEntry.sectionEnd, hebx, hres, hchunk]
      simp [start, flat, AssetType.order]
      omega

theorem sectionCount_count (entry : BundleEntry) (type type' : AssetType) :
    (entry.count type).sectionCount type'
      = if type' = type then entry.sectionCount type + 1 else entry.sectionCount type' := by
  cases type <;> cases type' <;> rfl

theorem count_hash (entry : BundleEntry) (type : AssetType) : (entry.count type).hash = entry.hash := by
  cases type <;> rfl

/-- Files that are put at the ends of the sections end up there, one behind the other. -/
theorem inserted_flat {fs fs' : List FileInfo} {entry entry' : BundleEntry}
    {adds : List DeferredBundleFileAdd} (h : LayoutManifest.Inserted fs entry adds fs' entry')
    {header : FileInfo} {sections : AssetType → List FileInfo}
    (hfs : fs = header :: flat AssetType.order sections)
    (hcounts : ∀ type, (entry.sectionCount type).toNat = (sections type).length)
    (hbound : ∀ type, (withAdded sections adds type).length < 2 ^ 32) :
    fs' = header :: flat AssetType.order (withAdded sections adds) ∧ entry'.hash = entry.hash ∧
      ∀ type, (entry'.sectionCount type).toNat = (withAdded sections adds type).length := by
  induction h generalizing sections with
  | nil =>
      rw [withAdded_nil]
      exact ⟨hfs, rfl, hcounts⟩
  | @cons files files' entry entry' add adds bound rest ih =>
      rw [withAdded_cons] at hbound ⊢
      rw [← count_hash entry add.type]
      refine ih ?_ ?_ hbound
      · rw [hfs, sectionEnd_eq hcounts, List.insertIdx_succ_cons,
          flat_concat AssetType.nodup_order _ add.type.mem_order]
      · intro type
        rw [sectionCount_count]
        by_cases ht : type = add.type
        · subst ht
          have hlt := hbound add.type
          rw [withAdded, Function.update_self, List.length_append, List.length_append,
            List.length_singleton] at hlt
          rw [if_pos rfl, Function.update_self, List.length_append, List.length_singleton,
            UInt32.toNat_add, hcounts]
          exact Nat.mod_eq_of_lt (by simp; omega)
        · rw [if_neg ht, Function.update_of_ne ht, hcounts]

/-- The sections are within the limits of `AddFileToBundle`. -/
def BundleManifest.WithinLimits (m : BundleManifest) : Prop :=
  m.ebxEntries.length ≤ 200000 ∧ m.resEntries.length ≤ 2000000 ∧ m.chunkEntries.length ≤ 2000000

instance (m : BundleManifest) : Decidable m.WithinLimits := inferInstanceAs (Decidable (_ ∧ _ ∧ _))

theorem BundleManifest.WithinLimits.lt {m : BundleManifest} (h : m.WithinLimits)
    (type : AssetType) : (m.entries type).length < 2 ^ 32 := by
  obtain ⟨hebx, hres, hchunk⟩ := h
  cases type <;> simp only [entries, List.length_map] <;> omega

/-- Nothing is turned away before a limit is reached. -/
theorem not_tooMany {m : BundleManifest} (h : m.WithinLimits) {entry : BundleEntry}
    (hcounts : ∀ type, (entry.sectionCount type).toNat ≤ (m.entries type).length) :
    entry.tooMany = false := by
  obtain ⟨hebx, hres, hchunk⟩ := h
  have h₁ := hcounts .ebx
  have h₂ := hcounts .res
  have h₃ := hcounts .chunk
  simp only [BundleEntry.sectionCount, BundleManifest.entries, List.length_map] at h₁ h₂ h₃
  simp only [BundleEntry.tooMany, Bool.or_eq_false_iff, decide_eq_false_iff_not,
    UInt32.lt_iff_toNat_lt]
  refine ⟨⟨?_, ?_⟩, ?_⟩
  · show ¬ 200000 < entry.ebxCount.toNat
    omega
  · show ¬ 2000000 < entry.resCount.toNat
    omega
  · show ¬ 2000000 < entry.chunkCount.toNat
    omega

theorem length_added_take_le (deferred : List DeferredBundleFileAdd) (k : Nat) (type : AssetType) :
    (added (deferred.take k) type).length ≤ (added deferred type).length :=
  (((List.take_sublist k deferred).filter _).map _).length_le

/-- What waits is put where it belongs, all of it. -/
theorem Aligned.addDeferred {loader : Loader} {b : UInt32} {vanilla : BundleManifest}
    {files : List FileInfo} {header : FileInfo} {m m' : LayoutManifest}
    {manifest : BundleManifest} {sections : AssetType → List FileInfo}
    {deferred : List DeferredBundleFileAdd} {entries entries' : BundleEntries}
    (h : Aligned loader b vanilla files header m manifest sections deferred)
    (hagg : AggregatedBundle loader.vanilla b (entries.at b) vanilla)
    (hlimits : manifest.WithinLimits)
    (hadd : LayoutManifest.addDeferred loader.addedBundles b deferred m entries
      = .ok (m', entries')) :
    m'.bundleInfo[b]? = some
      { hash := b, files := header :: flat AssetType.order (withAdded sections deferred) } := by
  obtain ⟨k, hk, fs', hget, hinserted, hrefuses⟩ := LayoutManifest.addDeferred_at h.layout hadd
  have hlength : ∀ type, (withAdded sections deferred type).length
      = (manifest.entries type).length := fun type => (h.data type).length_eq.symm
  have htake : ∀ type, (withAdded sections (deferred.take k) type).length
      ≤ (manifest.entries type).length := by
    intro type
    rw [← hlength, withAdded, withAdded, List.length_append, List.length_append]
    exact Nat.add_le_add_left (length_added_take_le deferred k type) _
  obtain ⟨rfl, hhash, hcounts⟩ := inserted_flat hinserted rfl
    (fun type => by rw [hagg.counts, h.length])
    fun type => Nat.lt_of_le_of_lt (htake type) (hlimits.lt type)
  by_cases hlt : k < deferred.length
  · obtain ⟨-, hne | hmany⟩ := hrefuses hlt
    · exact absurd (hhash.trans hagg.hash) hne
    · rw [not_tooMany hlimits fun type => by rw [hcounts]; exact htake type] at hmany
      cases hmany
  · rwa [List.take_of_length_le (Nat.not_lt.mp hlt)] at hget

/-! ## The merged manifests -/

/-- The bundle's files in the layout are the data of the entries of its manifest, in
their order: the first is the manifest's own, and the `i`-th entry has the file behind
`i` others. -/
def PositionsAgree (loader : Loader) (b : UInt32) (vanilla : BundleManifest)
    (files : List FileInfo) (layout : LayoutManifest) (merged : BundleManifest) : Prop :=
  ∃ files', layout.bundleInfo[b]? = some { hash := b, files := files' } ∧
    files'.head? = files.head? ∧
    files'.length = 1 + merged.ebxEntries.length + merged.resEntries.length
      + merged.chunkEntries.length ∧
    ∀ (i : Nat) (e : Entry), (flat AssetType.order merged.entries)[i]? = some e →
      ∃ file, files'[i + 1]? = some file ∧ DataOf loader b vanilla files e file

theorem length_flat_entries (m : BundleManifest) :
    (flat AssetType.order m.entries).length
      = m.ebxEntries.length + m.resEntries.length + m.chunkEntries.length := by
  simp [flat, AssetType.order, BundleManifest.entries]
  omega

/-- The vanilla bundle, before anything is merged. -/
theorem aligned_vanilla {loader : Loader} {b : UInt32} {entry : BundleEntry}
    {vanilla : BundleManifest} {m : LayoutManifest}
    (hagg : AggregatedBundle loader.vanilla b entry vanilla)
    (hget : m.bundleInfo[b]? = some { hash := b, files := entry.files }) :
    ∃ header sections, entry.files.head? = some header ∧
      Aligned loader b vanilla entry.files header m vanilla sections [] := by
  have hfiles := hagg.files
  cases hcons : entry.files with
  | nil =>
      rw [hcons, List.length_nil] at hfiles
      omega
  | cons header rest =>
      rw [hcons, List.length_cons, Nat.add_comm, Nat.add_left_cancel_iff] at hfiles
      refine ⟨header, fun type => (rest.drop (start AssetType.order vanilla.entries type)).take
        (vanilla.entries type).length, rfl, ?_⟩
      have hle : ∀ type, start AssetType.order vanilla.entries type
          + (vanilla.entries type).length ≤ rest.length := by
        intro type
        rw [hfiles]
        exact start_add_length_le AssetType.nodup_order vanilla.entries type.mem_order
      have hlength : ∀ type, ((rest.drop (start AssetType.order vanilla.entries type)).take
          (vanilla.entries type).length).length = (vanilla.entries type).length := by
        intro type
        have := hle type
        rw [List.length_take, List.length_drop]
        omega
      constructor
      case layout => rw [hget, hcons, flat_slices AssetType.nodup_order vanilla.entries hfiles]
      case length => exact hlength
      case keys => exact fun type i e he => ⟨e, he, rfl⟩
      case data =>
        intro type
        rw [List.forall₂_iff_get]
        refine ⟨by simp [added, hlength], fun i h₁ h₂ => ?_⟩
        refine .vanilla (List.getElem?_eq_getElem h₁) ?_
        have hlt : i < ((rest.drop (start AssetType.order vanilla.entries type)).take
            (vanilla.entries type).length).length := by rwa [hlength]
        rw [BundleManifest.place, Nat.add_comm 1, List.getElem?_cons_succ]
        simp only [added, List.filter_nil, List.map_nil, List.append_nil, List.get_eq_getElem]
        rw [List.getElem_take, List.getElem_drop, List.getElem?_eq_getElem]

section Merged

variable {loader : Loader} {m : LayoutManifest} {entries : BundleEntries}
  {manifests : UInt32 → BundleManifest}

theorem Aggregation.headed (h : Aggregation loader m entries manifests) {b : UInt32}
    (hb : m.bundleInfo.contains b = true) : m.Headed := by
  refine ⟨⟨b, hb⟩, fun b' info hget hnil => ?_⟩
  obtain ⟨rfl, hagg⟩ := h.vanilla b' info hget
  dsimp only at hnil
  have hfiles := hagg.files
  rw [hnil, List.length_nil] at hfiles
  omega

theorem Aggregation.placed (h : Aggregation loader m entries manifests) :
    LayoutManifest.Placed loader.vanilla m := by
  intro b info hget type name position hposition
  obtain ⟨rfl, hagg⟩ := h.vanilla b info hget
  obtain ⟨i, e, he, -, hplace⟩ := hagg.placed type name position hposition
  have hlt := start_add_lt AssetType.nodup_order (manifests b).entries type.mem_order
    (List.getElem?_eq_some_iff.mp he).1
  rw [hplace, BundleManifest.place, hagg.files]
  omega

theorem Aggregation.counted (h : Aggregation loader m entries manifests) :
    m.Counted entries := by
  intro b info hget
  obtain ⟨rfl, hagg⟩ := h.vanilla b info hget
  have hebx := hagg.counts .ebx
  have hres := hagg.counts .res
  have hchunk := hagg.counts .chunk
  simp only [BundleEntry.sectionCount, BundleManifest.entries, List.length_map] at hebx hres hchunk
  rw [hagg.files, length_flat_entries, BundleEntry.sectionEnd, hebx, hres, hchunk]
  omega

/-- The two passes at one bundle, when both come to their end: all that is left to do for
the layout are the additions that were deferred. -/
theorem merged_aligned {mods : List KyberMod} (hmods : loader.mods = finalizeModLoads mods)
    (hcons : Consistent loader) (hagg : Aggregation loader m entries manifests)
    {name : ByteString} {b : UInt32} (hb : b = hashQuickLower (BundleManifest.platformPath ++ name))
    (hpresent : m.bundleInfo.contains b = true) (hcustom : loader.addedBundles.contains b = false)
    {m' : LayoutManifest} {entries' : BundleEntries}
    (hlayout : mergeLayoutManifest loader m entries = .ok (m', entries')) {merged : BundleManifest}
    (hmanifest : mergeBundleManifest loader name (manifests b) = .ok merged) :
    AggregatedBundle loader.vanilla b (entries.at b) (manifests b) ∧
      ∃ header sections deferred m₁ m₂ e₁ e₂, (entries.at b).files.head? = some header ∧
        Aligned loader b (manifests b) (entries.at b).files header m₁ merged sections deferred ∧
        BundleEntries.at e₁ b = entries.at b ∧
        LayoutManifest.addDeferred loader.addedBundles b deferred m₁ e₁ = .ok (m₂, e₂) ∧
        m'.bundleInfo[b]? = m₂.bundleInfo[b]? := by
  rw [Std.TreeMap.contains_eq_isSome_getElem?, Option.isSome_iff_exists] at hpresent
  obtain ⟨info, hget⟩ := hpresent
  obtain ⟨rfl, hbundle⟩ := hagg.vanilla b info hget
  obtain ⟨m₁, hnew, hlayout⟩ := bind_eq_ok hlayout
  obtain ⟨m₂, hmodify, hmerge⟩ := bind_eq_ok hlayout
  rw [mergeBundleManifest, ← hb, if_neg (by simp [hcustom])] at hmanifest
  obtain ⟨manifest₁, hmodify', hmerge'⟩ := bind_eq_ok hmanifest
  obtain ⟨header, sections, hheader, h⟩ :=
    aligned_vanilla hbundle (LayoutManifest.addChunksAndBundles_some hnew hget)
  -- Both passes over the mods' resources begin with nothing seen.
  obtain ⟨sections₁, h₁⟩ := modify_aligned hbundle hcons (fun r hr => hr)
    (by simp [Decided]) h hmodify hmodify'
  -- The layout's pass over the bundle, found among those over all bundles.
  obtain ⟨m₃, e₃, deferred, m₄, m₅, e₅, hget₃, hat₃, hfiles, hadd, hget₅, -⟩ :=
    (LayoutManifest.mergeBundles_resourcesOf b hmerge).run
  have hsubset : ∀ r ∈ loader.mods.resourcesOf b, r ∈ loader.mods.modResources := by
    rw [hmods]
    exact fun r hr => resourcesOf_subset hr
  have hnodup : ((loader.mods.resourcesOf b).map (·.uniqueIdWithType)).Nodup := by
    rw [hmods]
    exact resourcesOf_nodup mods b
  have hfresh : Fresh (manifests b) manifest₁ (loader.mods.resourcesOf b) := by
    intro r _ type _ _ j e hj he
    have hlength := (h₁.data type).length_eq
    have hlt := (List.getElem?_eq_some_iff.mp he).1
    rw [hlength, List.length_append, h₁.length] at hlt
    simp only [added, List.filter_nil, List.map_nil, List.length_nil] at hlt
    omega
  obtain ⟨sections₂, h₂⟩ := merge_aligned hbundle hcons (fun r hr => ⟨hsubset r hr, hr⟩) hnodup
    hfresh (h₁.of_layout hget₃) hfiles hmerge'
  exact ⟨hbundle, header, sections₂, deferred, m₄, m₅, e₃, e₅, hheader, h₂, hat₃, hadd, hget₅⟩

/-- When everything that waits has been added, the files are the data of the entries. -/
theorem Aligned.positionsAgree {b : UInt32} {vanilla merged : BundleManifest}
    {files : List FileInfo} {header : FileInfo} {m₁ m' : LayoutManifest}
    {sections : AssetType → List FileInfo} {deferred : List DeferredBundleFileAdd}
    (h : Aligned loader b vanilla files header m₁ merged sections deferred)
    (hheader : files.head? = some header)
    (hget : m'.bundleInfo[b]? = some
      { hash := b, files := header :: flat AssetType.order (withAdded sections deferred) }) :
    PositionsAgree loader b vanilla files m' merged := by
  have hdata : List.Forall₂ (DataOf loader b vanilla files) (flat AssetType.order merged.entries)
      (flat AssetType.order (withAdded sections deferred)) := forall₂_flat _ h.data
  refine ⟨_, hget, hheader.symm, ?_, ?_⟩
  · rw [List.length_cons, ← hdata.length_eq, length_flat_entries]
    omega
  · intro i e he
    obtain ⟨hi, rfl⟩ := List.getElem?_eq_some_iff.mp he
    have hi' : i < (flat AssetType.order (withAdded sections deferred)).length := by
      rwa [← hdata.length_eq]
    refine ⟨(flat AssetType.order (withAdded sections deferred))[i], ?_, hdata.get hi hi'⟩
    rw [List.getElem?_cons_succ, List.getElem?_eq_getElem hi']

/-- A bundle that is past a limit already takes no files: the manifests agree only if
there is nothing to add. -/
theorem positionsAgree_iff_of_tooMany {mods : List KyberMod}
    (hmods : loader.mods = finalizeModLoads mods) (hcons : Consistent loader)
    (hagg : Aggregation loader m entries manifests) {name : ByteString} {b : UInt32}
    (hb : b = hashQuickLower (BundleManifest.platformPath ++ name))
    (hpresent : m.bundleInfo.contains b = true) (hcustom : loader.addedBundles.contains b = false)
    (hmany : (entries.at b).tooMany = true) {m' : LayoutManifest} {entries' : BundleEntries}
    (hlayout : mergeLayoutManifest loader m entries = .ok (m', entries')) {merged : BundleManifest}
    (hmanifest : mergeBundleManifest loader name (manifests b) = .ok merged) :
    PositionsAgree loader b (manifests b) (entries.at b).files m' merged ↔
      (flat AssetType.order merged.entries).length
        = (flat AssetType.order (manifests b).entries).length := by
  obtain ⟨-, header, sections, deferred, m₁, m₂, e₁, e₂, hheader, h, hat, hadd, hget⟩ :=
    merged_aligned hmods hcons hagg hb hpresent hcustom hlayout hmanifest
  obtain ⟨rfl, -⟩ := LayoutManifest.addDeferred_refused ⟨hcustom, .inr (by rwa [hat])⟩ hadd
  rw [h.layout] at hget
  have hvanilla := length_flat_congr AssetType.order h.length
  constructor
  · rintro ⟨files', hget', -, hlength, -⟩
    rw [hget] at hget'
    cases hget'
    rw [List.length_cons] at hlength
    rw [length_flat_entries, ← hvanilla]
    omega
  · intro hlength
    refine h.positionsAgree hheader ?_
    have hnone : deferred = [] := by
      have hdata : _ = (flat AssetType.order (withAdded sections deferred)).length :=
        (forall₂_flat AssetType.order h.data).length_eq
      rw [length_withAdded, hlength, ← hvanilla] at hdata
      exact List.length_eq_zero_iff.mp (by omega)
    subst hnone
    rw [hget, withAdded_nil]

end Merged

/-- Positional agreement. The layout's pass goes through, the bundle's pass does when the
chunk meta of the bundle can be read, and the files and the entries they leave agree. -/
theorem mergedManifests_agree (loader : Loader) (mods : List KyberMod)
    (hmods : loader.mods = finalizeModLoads mods) (hcons : Consistent loader)
    (hbacked : ∀ b, ∀ r ∈ loader.mods.resourcesOf b, LayoutManifest.Backed loader r)
    (m : LayoutManifest) (entries : BundleEntries) (manifests : UInt32 → BundleManifest)
    (hagg : Aggregation loader m entries manifests) (name : ByteString) (b : UInt32)
    (hb : b = hashQuickLower (BundleManifest.platformPath ++ name))
    (hpresent : m.bundleInfo.contains b = true)
    (hcustom : loader.addedBundles.contains b = false) :
    ∃ m' entries', mergeLayoutManifest loader m entries = .ok (m', entries') ∧
      ((manifests b).MetaReadable →
        ∃ merged, mergeBundleManifest loader name (manifests b) = .ok merged) ∧
      ∀ merged, mergeBundleManifest loader name (manifests b) = .ok merged →
        merged.WithinLimits →
          PositionsAgree loader b (manifests b) (entries.at b).files m' merged := by
  obtain ⟨m', entries', hlayout⟩ := mergeLayoutManifest_total (.inr (hagg.headed hpresent)) hagg.placed
    hagg.counted hagg.new hbacked
  refine ⟨m', entries', hlayout, fun hmeta => mergeBundleManifest_total hmeta loader name, ?_⟩
  intro merged hmanifest hlimits
  obtain ⟨hbundle, header, sections, deferred, m₁, m₂, e₁, e₂, hheader, h, hat, hadd, hget⟩ :=
    merged_aligned hmods hcons hagg hb hpresent hcustom hlayout hmanifest
  refine h.positionsAgree hheader (hget.trans ?_)
  exact h.addDeferred (by rw [hat]; exact hbundle) hlimits hadd

/-! ## A bundle with an ebx and a res

A mod changes the ebx and adds another one, which moves the res. -/

namespace Sample

/-- The bundle `a`. -/
def bundle : UInt32 := hashQuickLower (BundleManifest.platformPath ++ [0x61])

def file (offset : UInt32) : FileInfo := { file := 1, offset, size := 1 }

def entry : BundleEntry :=
  { hash := bundle, ebxCount := 1, resCount := 1, files := [file 0, file 1, file 2] }

def entries : BundleEntries := ({} : BundleEntries).insert bundle entry

def layout : LayoutManifest :=
  { bundleInfo := ({} : Std.TreeMap UInt32 BundleInfo).insert bundle
      { hash := bundle, files := entry.files } }

/-- The ebx `x`. -/
def vanillaEbx : EbxEntry := { name := [0x78], originalSize := 1 }

/-- The res `y`. -/
def vanillaRes : ResEntry :=
  { name := [0x79], originalSize := 1, resType := 0, resMeta := Vector.replicate 16 0, resRid := 7 }

def manifest : BundleManifest :=
  { ebxEntries := [vanillaEbx], resEntries := [vanillaRes] }

def changed : ModResource := ebxResource [0x78] (idWithType .ebx [0x78]) [] 0 10

/-- The ebx `z`. -/
def new : ModResource := ebxResource [0x7a] (idWithType .ebx [0x7a]) [bundle] 0 20

def loader : Loader where
  mods := finalizeModLoads [{ resources := [changed, new] }]
  addedBundles := {}
  dupedHandlerSources := {}
  vanilla :=
    { getVanillaEbxEntry := fun name => if name = [0x78] then
        some { entry := vanillaEbx, file := file 1,
               bundleFileOffsets := ({} : Std.TreeMap UInt32 UInt32).insert bundle 1 } else none
      getVanillaResEntry := fun name => if name = [0x79] then
        some { entry := vanillaRes, file := file 2,
               bundleFileOffsets := ({} : Std.TreeMap UInt32 UInt32).insert bundle 2 } else none
      getVanillaChunkEntry := fun _ => none }

theorem mem_modResources {r : ModResource} (hr : r ∈ loader.mods.modResources) :
    r = changed ∨ r = new := by
  rw [loader, modResources_eq] at hr
  obtain ⟨r₀, hr₀, rfl⟩ := List.mem_map.mp hr
  rw [mem_sorted] at hr₀
  have hcases : r₀ = changed ∨ r₀ = new := by simpa [byPriority] using hr₀
  rcases hcases with rfl | rfl
  · exact .inl (inheritData_of_data (by decide))
  · exact .inr (inheritData_of_data (by decide))

theorem type_eq {r : ModResource} (hr : r ∈ loader.mods.modResources) : r.type = .ebx := by
  obtain rfl | rfl := mem_modResources hr <;> rfl

theorem hasData {r : ModResource} (hr : r ∈ loader.mods.modResources) : r.HasData := by
  obtain rfl | rfl := mem_modResources hr <;> decide

/-- A table with one asset, which is in the bundle. -/
theorem position_single {ε : Type} {known name : ByteString} {x : ε} {f : FileInfo}
    {b index position : UInt32}
    (h : (Option.map VanillaEntry.bundleFileOffsets (if name = known then
      some { entry := x, file := f,
             bundleFileOffsets := ({} : Std.TreeMap UInt32 UInt32).insert bundle index }
      else none)).bind (·[b]?) = some position) :
    name = known ∧ b = bundle ∧ position = index := by
  split at h
  next hname =>
    simp only [Option.map_some, Option.bind_some] at h
    rw [getElem?_insert_eq] at h
    split at h
    next hb =>
      cases h
      exact ⟨hname, hb, rfl⟩
    next => simp at h
  next => cases h

theorem position_ebx {name : ByteString} {b position : UInt32}
    (h : loader.vanilla.position .ebx name b = some position) :
    name = [0x78] ∧ b = bundle ∧ position = 1 := position_single h

theorem position_res {name : ByteString} {b position : UInt32}
    (h : loader.vanilla.position .res name b = some position) :
    name = [0x79] ∧ b = bundle ∧ position = 2 := position_single h

theorem consistent : Consistent loader where
  id_eq r hr := by obtain rfl | rfl := mem_modResources hr <;> rfl
  ids r hr r' hr' hid := by
    obtain rfl | rfl := mem_modResources hr <;> obtain rfl | rfl := mem_modResources hr'
    · exact ⟨rfl, rfl⟩
    · exact absurd hid (by decide)
    · exact absurd hid (by decide)
    · exact ⟨rfl, rfl⟩
  inBundles r hr r' hr' type type' b b' htype htype' hsome hsome' _ := by
    rw [type_eq hr] at htype
    rw [type_eq hr'] at htype'
    cases htype
    cases htype'
    obtain ⟨position, hposition⟩ := Option.isSome_iff_exists.mp hsome
    obtain ⟨position', hposition'⟩ := Option.isSome_iff_exists.mp hsome'
    obtain ⟨hname, rfl, -⟩ := position_ebx hposition
    obtain ⟨hname', rfl, -⟩ := position_ebx hposition'
    have hr₁ : r = changed := (mem_modResources hr).resolve_right (by
      rintro rfl
      exact absurd hname (by decide))
    have hr₂ : r' = changed := (mem_modResources hr').resolve_right (by
      rintro rfl
      exact absurd hname' (by decide))
    exact ⟨by rw [hr₁, hr₂], rfl⟩
  guids r hr _ _ htype := by
    rw [type_eq hr] at htype
    cases htype
  spelt r hr type htype name hsome hletters := by
    rw [type_eq hr] at htype
    cases htype
    have hname : name = [0x78] := by
      by_contra hne
      simp [VanillaTables.offsets, loader, hne] at hsome
    subst hname
    obtain rfl | rfl := mem_modResources hr
    · rfl
    · exact absurd hletters (by decide)
  spelt_guid r hr htype := by
    rw [type_eq hr] at htype
    cases htype
  rid_vanilla r hr htype := by
    rw [type_eq hr] at htype
    cases htype
  rid_mods r hr _ _ htype := by
    rw [type_eq hr] at htype
    cases htype

theorem aggregatedBundle : AggregatedBundle loader.vanilla bundle entry manifest where
  hash := rfl
  files := rfl
  counts type := by cases type <;> rfl
  positioned type i e he := by
    cases type with
    | ebx =>
        obtain ⟨hi, rfl⟩ := List.getElem?_eq_some_iff.mp he
        obtain rfl : i = 0 := Nat.lt_one_iff.mp hi
        exact ⟨[0x78], 1, rfl, by decide, rfl⟩
    | res =>
        obtain ⟨hi, rfl⟩ := List.getElem?_eq_some_iff.mp he
        obtain rfl : i = 0 := Nat.lt_one_iff.mp hi
        exact ⟨[0x79], 2, rfl, by decide, rfl⟩
    | chunk => cases he
  placed type name position hposition := by
    cases type with
    | ebx =>
        obtain ⟨rfl, -, rfl⟩ := position_ebx hposition
        exact ⟨0, .ebx vanillaEbx, rfl, rfl, rfl⟩
    | res =>
        obtain ⟨rfl, -, rfl⟩ := position_res hposition
        exact ⟨0, .res vanillaRes, rfl, rfl, rfl⟩
    | chunk => cases hposition
  rids e he := by
    obtain rfl := List.mem_singleton.mp he
    exact ⟨_, rfl, rfl⟩

theorem aggregation : Aggregation loader layout entries (fun _ => manifest) where
  vanilla b info hget := by
    rw [layout, getElem?_insert_eq] at hget
    split at hget
    next hb =>
      subst hb
      cases hget
      rw [entries, BundleEntries.at_insert, if_pos rfl]
      exact ⟨rfl, aggregatedBundle⟩
    next => simp at hget
  new b hb := by
    obtain ⟨r, hr, -⟩ := List.mem_map.mp hb
    obtain ⟨hr, htype⟩ := List.mem_filter.mp hr
    rw [type_eq hr] at htype
    cases htype

theorem backed (b : UInt32) : ∀ r ∈ loader.mods.resourcesOf b, LayoutManifest.Backed loader r :=
  fun _ hr _ _ hno => absurd (hasData (resourcesOf_subset hr)) hno

/-- The resources come in the order of their types already. -/
theorem mergeSort_eq :
    (byPriority [{ resources := [changed, new] }]).mergeSort leType = [changed, new] :=
  List.mergeSort_of_pairwise (l := [changed, new]) (by
    simp [changed, new, ebxResource, leType])

theorem merged_limits : (mergeBundleManifest loader [0x61] manifest).toOption.map
    (fun merged => decide (merged.WithinLimits ∧ merged.ebxEntries.length = 2)) = some true := by
  simp only [loader, finalizeModLoads]
  rw [mergeSort_eq]
  decide

end Sample

theorem mergedManifests_agree_sample :
    ∃ m' entries' merged,
      mergeLayoutManifest Sample.loader Sample.layout Sample.entries = .ok (m', entries') ∧
      mergeBundleManifest Sample.loader [0x61] Sample.manifest = .ok merged ∧
      merged.ebxEntries.length = 2 ∧
      PositionsAgree Sample.loader Sample.bundle Sample.manifest
        (Sample.entries.at Sample.bundle).files m' merged := by
  obtain ⟨m', entries', hlayout, htotal, hagree⟩ := mergedManifests_agree Sample.loader _ rfl
    Sample.consistent Sample.backed Sample.layout Sample.entries (fun _ => Sample.manifest)
    Sample.aggregation [0x61] Sample.bundle rfl (by decide) (by decide)
  obtain ⟨merged, hmerged⟩ := htotal ⟨[], rfl, by simp⟩
  have hlimits := Sample.merged_limits
  rw [hmerged] at hlimits
  have hlimits : merged.WithinLimits ∧ merged.ebxEntries.length = 2 := by
    simpa [Except.toOption] using hlimits
  exact ⟨m', entries', merged, hlayout, hmerged, hlimits.2, hagree merged hmerged hlimits.1⟩

end Kyber.ModLoader
