import Kyber.Proofs.Positional

/-!
# As many files as entries

The two passes decide on their own whether a resource is one file, or one entry, more for a
bundle. The layout's pass goes by the position of the resource's name in the vanilla bundle.
The bundle's pass goes by the entries that are there: by the name of an ebx, the rid of a res
and the guid that the name of a chunk is parsed to. Nothing makes the two the same, so a
resource can be added to one and take the place of something in the other.

What the bundle's pass finds is known from the mods and the vanilla manifest alone: the keys
of the vanilla entries, of which the rid of a res can change when the res is modified, and
the keys that the resources before it have brought (`isFound`). So the two numbers are equal
exactly if the resources that only the layout adds, with those that find the bundle full,
are as many as those that only the manifest adds.

A resource without data whose vanilla entry is missing is appended, skipped or dereferenced,
depending on the type and on the pass. Where nothing is dereferenced, the passes agree.
-/

namespace Kyber.ModLoader

open Kyber.Lib

/-! ## What is promised -/

def LayoutManifest.fileCount (m : LayoutManifest) (b : UInt32) : Nat :=
  match m.bundleInfo[b]? with
  | some info => info.files.length
  | none => 0

def BundleManifest.entryCount (m : BundleManifest) : Nat :=
  m.ebxEntries.length + m.resEntries.length + m.chunkEntries.length

/-- The bundle of the layout that is loaded under a name, if it is not one of the mods. -/
structure LayoutManifest.IsVanilla (m : LayoutManifest) (loader : Loader) (name : ByteString)
    (b : UInt32) : Prop where
  hash : b = hashQuickLower (BundleManifest.platformPath ++ name)
  present : m.bundleInfo.contains b = true
  notAdded : loader.addedBundles.contains b = false

/-- The layout's pass goes through, and every bundle gets as many files from it as the pass
over the bundle adds entries to its manifest. -/
def LengthsAgree (loader : Loader) (m : LayoutManifest) (entries : BundleEntries)
    (manifests : UInt32 → BundleManifest) : Prop :=
  ∃ m' entries', mergeLayoutManifest loader m entries = .ok (m', entries') ∧
    ∀ name b merged, m.IsVanilla loader name b →
      mergeBundleManifest loader name (manifests b) = .ok merged →
        ∃ n, m'.fileCount b = m.fileCount b + n ∧
          merged.entryCount = (manifests b).entryCount + n

/-! ## When it is kept -/

/-- The key of an entry when the resource has modified it. Only the rid of a res changes. -/
def EntryKey.modifiedBy (key : EntryKey) (r : ModResource) : EntryKey :=
  match key with
  | .res name rid => .res name (if r.type = .res ∧ r.name = name then r.data.resRid else rid)
  | key => key

section

variable (loader : Loader) (b : UInt32)

/-- The resources of a list that bring data to the bundle's own entries. -/
def active (rs : List ModResource) : List ModResource :=
  rs.filter fun r => !r.containsBundle b && decide r.HasData

/-- The resources that modify the vanilla entries of a bundle, one for each id. -/
def modifiers : List ModResource :=
  firsts (·.uniqueIdWithType) (active b loader.mods.modResources)

/-- What the vanilla entries of a bundle are found by. -/
def vanillaKeys (vanilla : BundleManifest) (type : AssetType) : List EntryKey :=
  (vanilla.entries type).map fun e => (modifiers loader b).foldl EntryKey.modifiedBy e.key

/-- What the entry is found by that a resource brings or replaces. -/
def keyOf (type : AssetType) (r : ModResource) : Option EntryKey :=
  if r.type.assetType = some type then
    if r.HasData then some (r.entry type).key else (unchangedEntry loader r type).map Entry.key
  else none

/-- The resource is taken for a vanilla entry, or for one that a resource before it brings. -/
def isFound (vanilla : BundleManifest) (before : List ModResource) (r : ModResource)
    (type : AssetType) : Bool :=
  (vanillaKeys loader b vanilla type ++ before.filterMap (keyOf loader type)).any r.finds

/-- The resource has a position in the bundle, but is not found. -/
def unfound (vanilla : BundleManifest) (before : List ModResource) (r : ModResource) : Bool :=
  r.type.assetType.any fun type => decide r.HasData &&
    (loader.vanilla.position type r.name b).isSome && !isFound loader b vanilla before r type

/-- The resource has no position in the bundle, but is taken for something there. -/
def mistaken (vanilla : BundleManifest) (before : List ModResource) (r : ModResource) : Bool :=
  r.type.assetType.any fun type => decide r.HasData &&
    (loader.vanilla.position type r.name b).isNone && isFound loader b vanilla before r type

/-- The type of the file that a resource is more for the bundle. -/
def addedType (r : ModResource) : Option AssetType :=
  r.type.assetType.bind fun type =>
    if r.HasData then
      if (loader.vanilla.position type r.name b).isNone then some type else none
    else (unchangedEntry loader r type).map fun _ => type

end

/-- How many resources of a list are so, with those before them. -/
def countAmong (p : List ModResource → ModResource → Bool) : List ModResource →
    List ModResource → Nat
  | _, [] => 0
  | before, r :: rs => (if p before r then 1 else 0) + countAmong p (before ++ [r]) rs

/-- How many of the files find a section of the bundle too large. -/
def turnedAway : BundleEntry → List AssetType → Nat
  | _, [] => 0
  | entry, type :: types =>
      if entry.tooMany then types.length + 1 else turnedAway (entry.count type) types

/-- The files that are turned away, and the resources that are not found though they have a
position, are as many as those that have none and are taken for something else. -/
def Balanced (loader : Loader) (b : UInt32) (entry : BundleEntry) (vanilla : BundleManifest)
    (rs : List ModResource) : Prop :=
  turnedAway entry (rs.filterMap (addedType loader b))
      + countAmong (unfound loader b vanilla) [] rs
    = countAmong (mistaken loader b vanilla) [] rs

/-- There is a bundle if the mods bring one, no resource without data lacks the vanilla entry
that is dereferenced, and every bundle that is merged is balanced. -/
structure KeepsLengths (loader : Loader) (m : LayoutManifest) (entries : BundleEntries)
    (manifests : UInt32 → BundleManifest) : Prop where
  bundle : LayoutManifest.newHashes loader.mods.modResources = [] ∨
    ∃ b, m.bundleInfo.contains b = true
  backed : ∀ b, ∀ r ∈ loader.mods.resourcesOf b, LayoutManifest.Backed loader r
  balanced : ∀ name b merged, m.IsVanilla loader name b →
    mergeBundleManifest loader name (manifests b) = .ok merged →
      Balanced loader b (entries.at b) (manifests b) (loader.mods.resourcesOf b)

theorem turnedAway_le (entry : BundleEntry) (types : List AssetType) :
    turnedAway entry types ≤ types.length := by
  induction types generalizing entry with
  | nil => exact Nat.le_refl _
  | cons type types ih =>
      rw [turnedAway]
      split
      next => exact Nat.le_refl _
      next => exact Nat.le_succ_of_le (ih _)

section AddedType

variable {loader : Loader} {b : UInt32} {r : ModResource} {type : AssetType}

theorem addedType_of_data (htype : r.type.assetType = some type) (hdata : r.HasData) :
    addedType loader b r =
      if (loader.vanilla.position type r.name b).isNone then some type else none := by
  rw [addedType, htype, Option.bind_some, if_pos hdata]

theorem addedType_of_noData (htype : r.type.assetType = some type) (hdata : ¬ r.HasData) :
    addedType loader b r = (unchangedEntry loader r type).map fun _ => type := by
  rw [addedType, htype, Option.bind_some, if_neg hdata]

end AddedType

/-! ## The layout's pass -/

namespace LayoutManifest

/-- The same bundles, with as many files. -/
def SameCounts (m m' : LayoutManifest) : Prop :=
  ∀ b : UInt32, (m.bundleInfo[b]?).map (fun info => (info.hash, info.files.length))
    = (m'.bundleInfo[b]?).map fun info => (info.hash, info.files.length)

theorem SameCounts.refl (m : LayoutManifest) : SameCounts m m := fun _ => rfl

theorem SameCounts.trans {m₁ m₂ m₃ : LayoutManifest} (h₁ : SameCounts m₁ m₂)
    (h₂ : SameCounts m₂ m₃) : SameCounts m₁ m₃ := fun b => (h₁ b).trans (h₂ b)

theorem setFileInfo_sameCounts {m m' : LayoutManifest} {b : UInt32} {index : Nat}
    {file : FileInfo} (h : m.setFileInfo b index file = .ok m') : SameCounts m m' := by
  obtain ⟨-, rfl⟩ | ⟨info, hget, -, rfl⟩ := setFileInfo_ok h
  · exact .refl _
  · intro b'
    dsimp only
    rw [getElem?_insert_eq]
    split
    next hb => rw [hb, hget, Option.map_some, Option.map_some, List.length_set]
    next => rfl

theorem SameCounts.some {m m' : LayoutManifest} (h : SameCounts m m') {b : UInt32}
    {info : BundleInfo} (hget : m.bundleInfo[b]? = some info) :
    ∃ files, m'.bundleInfo[b]? = Option.some { hash := info.hash, files } ∧
      files.length = info.files.length := by
  have hb := h b
  rw [hget] at hb
  obtain ⟨⟨hash, files⟩, hget', hinfo⟩ := Option.map_eq_some_iff.mp hb.symm
  simp only [Prod.mk.injEq] at hinfo
  exact ⟨files, by rw [hget', hinfo.1], hinfo.2⟩

/-- The file of an unchanged asset is there exactly if its entry is. -/
theorem unchangedEntry_of_file {loader : Loader} {r : ModResource} {type : AssetType}
    {file : Option FileInfo} (h : unchangedFile loader r type = .ok file) :
    (unchangedEntry loader r type).isSome = file.isSome := by
  cases type with
  | ebx =>
      rw [unchangedFile] at h
      cases hget : loader.vanilla.getVanillaEbxEntry (loader.sourceName r) with
      | none =>
          rw [hget] at h
          cases h
      | some original =>
          rw [hget] at h
          cases h
          rw [unchangedEntry, hget]
          rfl
  | res =>
      rw [unchangedFile] at h
      cases hget : loader.vanilla.getVanillaResEntry r.name with
      | none =>
          rw [hget] at h
          cases h
      | some original =>
          rw [hget] at h
          cases h
          rw [unchangedEntry, hget]
          rfl
  | chunk =>
      cases h
      rw [unchangedEntry, Option.isSome_map, Option.isSome_map]

/-- What a resource adds waits, and is what it should be. -/
theorem addFile_counts {loader : Loader} {b : UInt32} {r : ModResource}
    {deferred deferred' : List DeferredBundleFileAdd} {m m' : LayoutManifest}
    (h : addFile loader b r deferred m = .ok (deferred', m')) :
    SameCounts m m' ∧ Backed loader r ∧
      deferred'.map (·.type) = deferred.map (·.type) ++ (addedType loader b r).toList := by
  cases addFile_ok h with
  | ignored _ why =>
      rcases why with htype | ⟨hno, htype, hget⟩
      · refine ⟨.refl _, fun type ht _ => ?_, ?_⟩
        · rw [htype] at ht
          cases ht
        · rw [addedType, htype]
          exact (List.append_nil _).symm
      · refine ⟨.refl _, fun type ht _ => ?_, ?_⟩
        · rw [htype] at ht
          cases ht
          exact ⟨_, rfl⟩
        · rw [addedType_of_noData htype hno, unchangedEntry, hget]
          exact (List.append_nil _).symm
  | modified htype hdata hposition hset =>
      refine ⟨setFileInfo_sameCounts hset, fun _ _ hno => absurd hdata hno, ?_⟩
      rw [addedType_of_data htype hdata, hposition]
      exact (List.append_nil _).symm
  | added htype hdata hposition =>
      refine ⟨.refl _, fun _ _ hno => absurd hdata hno, ?_⟩
      rw [addedType_of_data htype hdata, hposition, List.map_append]
      rfl
  | unchanged htype hno hfile =>
      refine ⟨.refl _, fun type ht _ => ?_, ?_⟩
      · rw [htype] at ht
        cases ht
        exact ⟨_, hfile⟩
      · obtain ⟨e, he⟩ := Option.isSome_iff_exists.mp (unchangedEntry_of_file hfile)
        rw [addedType_of_noData htype hno, he, List.map_append]
        rfl

theorem addFiles_counts {loader : Loader} {b : UInt32} {rs : List ModResource}
    {deferred deferred' : List DeferredBundleFileAdd} {m m' : LayoutManifest}
    (h : addFiles loader b rs deferred m = .ok (deferred', m')) :
    SameCounts m m' ∧ (∀ r ∈ rs, Backed loader r) ∧
      deferred'.map (·.type) = deferred.map (·.type) ++ rs.filterMap (addedType loader b) := by
  induction rs generalizing deferred m with
  | nil =>
      cases h
      exact ⟨.refl _, (fun r hr => by cases hr), (List.append_nil _).symm⟩
  | cons r rs ih =>
      obtain ⟨⟨deferred₁, m₁⟩, hadd, h⟩ := bind_eq_ok h
      obtain ⟨hsame, hbacked, htypes⟩ := addFile_counts hadd
      obtain ⟨hsame', hbacked', htypes'⟩ := ih h
      refine ⟨hsame.trans hsame', List.forall_mem_cons.mpr ⟨hbacked, hbacked'⟩, ?_⟩
      rw [htypes', htypes, List.append_assoc, List.filterMap_cons]
      cases addedType loader b r <;> rfl

/-- Files are added until a section of the bundle is too large. -/
theorem addDeferred_counts {addedBundles : Std.TreeSet UInt32} {b : UInt32}
    {deferred : List DeferredBundleFileAdd} {m m' : LayoutManifest}
    {entries entries' : BundleEntries} {files : List FileInfo}
    (hb : m.bundleInfo[b]? = some { hash := b, files }) (hhash : (entries.at b).hash = b)
    (hcustom : addedBundles.contains b = false)
    (h : addDeferred addedBundles b deferred m entries = .ok (m', entries')) :
    m'.fileCount b + turnedAway (entries.at b) (deferred.map (·.type))
      = files.length + deferred.length := by
  induction deferred generalizing m entries files with
  | nil =>
      cases h
      simp [fileCount, hb, turnedAway]
  | cons add deferred ih =>
      obtain ⟨⟨m₁, e₁⟩, hadd, hrest⟩ := bind_eq_ok h
      rw [List.map_cons, turnedAway]
      cases addFileToBundle_ok hadd with
      | ignored why agree =>
          obtain ⟨-, hne | hmany⟩ := (why _ hb).resolve_left (by simp)
          · exact absurd hhash hne
          · obtain ⟨rfl, -⟩ := addDeferred_refused ⟨hcustom, .inr hmany⟩ h
            rw [if_pos hmany, List.length_map, List.length_cons, fileCount, hb]
      | inserted get _ accepts bound at_eq =>
          rw [hb] at get
          cases get
          have hfew : ¬ (entries.at b).tooMany = true := fun hmany =>
            accepts ⟨hcustom, .inr hmany⟩
          have hat := at_eq b
          rw [if_pos rfl] at hat
          have hrec := ih (by dsimp only; rw [getElem?_insert_eq, if_pos rfl])
            (by rw [hat, count_hash, hhash]) hrest
          rw [hat, List.length_insertIdx_of_le_length bound] at hrec
          dsimp only at hrec
          rw [if_neg hfew, hrec, List.length_cons, Nat.add_assoc, Nat.add_comm 1]

/-- When the pass over the bundles has gone through, nothing was dereferenced that is not
there. -/
theorem backed_of_mergeBundles {loader : Loader} {m m' : LayoutManifest}
    {entries entries' : BundleEntries}
    (h : mergeBundles loader loader.mods.bundleResources.toList m entries = .ok (m', entries'))
    (b : UInt32) : ∀ r ∈ loader.mods.resourcesOf b, Backed loader r := by
  obtain ⟨m₁, e₁, deferred, m₂, m₃, e₃, -, -, hfiles, -⟩ := (mergeBundles_resourcesOf b h).run
  exact (addFiles_counts hfiles).2.1

end LayoutManifest

section Layout

variable {loader : Loader} {m m' : LayoutManifest} {entries entries' : BundleEntries}
  {manifests : UInt32 → BundleManifest}

theorem toList_eq_nil (h : ¬ ∃ b, m.bundleInfo.contains b = true) : m.bundleInfo.toList = [] := by
  refine List.eq_nil_iff_forall_not_mem.mpr fun p hp => h ⟨p.1, ?_⟩
  rw [Std.TreeMap.contains_eq_isSome_getElem?,
    Std.TreeMap.mem_toList_iff_getElem?_eq_some.mp hp]
  rfl

/-- The layout's pass goes through exactly if there is a bundle when one is added, and no
vanilla entry is dereferenced that is not there. -/
theorem mergeLayoutManifest_ok_iff (hagg : Aggregation loader m entries manifests) :
    (∃ m' entries', mergeLayoutManifest loader m entries = .ok (m', entries')) ↔
      (LayoutManifest.newHashes loader.mods.modResources = [] ∨
        ∃ b, m.bundleInfo.contains b = true) ∧
      ∀ b, ∀ r ∈ loader.mods.resourcesOf b, LayoutManifest.Backed loader r := by
  constructor
  · rintro ⟨m', entries', h⟩
    obtain ⟨m₁, hnew, h⟩ := bind_eq_ok h
    obtain ⟨m₂, -, h⟩ := bind_eq_ok h
    refine ⟨?_, LayoutManifest.backed_of_mergeBundles h⟩
    by_cases hbundle : ∃ b, m.bundleInfo.contains b = true
    · exact .inr hbundle
    · exact .inl (LayoutManifest.newHashes_of_empty (toList_eq_nil hbundle) hnew)
  · rintro ⟨hbundle, hbacked⟩
    refine mergeLayoutManifest_total (hbundle.imp_right ?_) hagg.placed hagg.counted hagg.new hbacked
    rintro ⟨b, hb⟩
    exact hagg.headed hb

/-- A vanilla bundle gets a file for each resource that adds one, without those that are
turned away. -/
theorem fileCount_merged (hagg : Aggregation loader m entries manifests) {name : ByteString}
    {b : UInt32} (hb : m.IsVanilla loader name b)
    (h : mergeLayoutManifest loader m entries = .ok (m', entries')) :
    m'.fileCount b
        + turnedAway (entries.at b) ((loader.mods.resourcesOf b).filterMap (addedType loader b))
      = m.fileCount b + ((loader.mods.resourcesOf b).filterMap (addedType loader b)).length := by
  obtain ⟨info, hget⟩ := Option.isSome_iff_exists.mp
    (Std.TreeMap.contains_eq_isSome_getElem?.symm.trans hb.present)
  obtain ⟨rfl, hbundle⟩ := hagg.vanilla b info hget
  obtain ⟨m₁, hnew, h⟩ := bind_eq_ok h
  obtain ⟨m₂, hmodify, h⟩ := bind_eq_ok h
  obtain ⟨m₃, e₃, deferred, m₄, m₅, e₅, hget₃, hat₃, hfiles, hadd, hget₅, -⟩ :=
    (LayoutManifest.mergeBundles_resourcesOf b h).run
  -- The passes over the mods' resources and over the bundle's set files and add none.
  obtain ⟨files, hget₂, hlength₂⟩ :=
    (LayoutManifest.modifyFiles_rule (P := fun _ => True) .refl .trans
      (fun _ => LayoutManifest.setFileInfo_sameCounts) (fun _ _ _ _ _ => trivial) hmodify).some
      (LayoutManifest.addChunksAndBundles_some hnew hget)
  obtain ⟨hsame, -, htypes⟩ := LayoutManifest.addFiles_counts hfiles
  obtain ⟨files₄, hget₄, hlength₄⟩ := hsame.some (hget₃.trans hget₂)
  have hcount := LayoutManifest.addDeferred_counts hget₄ (by rw [hat₃, hbundle.hash])
    hb.notAdded hadd
  rw [List.map_nil, List.nil_append] at htypes
  have hlength : deferred.length
      = ((loader.mods.resourcesOf b).filterMap (addedType loader b)).length := by
    rw [← htypes, List.length_map]
  rw [hat₃, htypes, hlength₄, hlength₂, hlength] at hcount
  rw [LayoutManifest.fileCount, hget₅, LayoutManifest.fileCount, hget]
  exact hcount

end Layout

/-! ## The modifications of the bundle's pass -/

theorem map_modifyFirst {α β : Type} {p : α → Bool} {g : α → α} {f f' : α → β} {l : List α}
    (hfound : ∀ a ∈ l, p a = true → f (g a) = f' a) (hother : ∀ a ∈ l, p a = false → f a = f' a)
    (hrest : l.Pairwise fun a c => p a = true → f c = f' c) :
    (modifyFirst p g l).map f = l.map f' := by
  induction l with
  | nil => rfl
  | cons a l ih =>
      obtain ⟨hafter, hrest⟩ := List.pairwise_cons.mp hrest
      rw [modifyFirst]
      split
      next ha =>
        rw [List.map_cons, List.map_cons, hfound a List.mem_cons_self ha]
        exact congrArg _ (List.map_congr_left fun c hc => hafter c hc ha)
      next ha =>
        rw [List.map_cons, List.map_cons, hother a List.mem_cons_self (by simpa using ha),
          ih (fun c hc => hfound c (List.mem_cons_of_mem a hc))
            (fun c hc => hother c (List.mem_cons_of_mem a hc)) hrest]

namespace EntryKey

/-- The name of a res. -/
def resName : EntryKey → ByteString
  | .res name _ => name
  | _ => []

theorem resName_modifiedBy (key : EntryKey) (r : ModResource) :
    (key.modifiedBy r).resName = key.resName := by
  cases key <;> rfl

theorem modifiedBy_of_type {r : ModResource} (h : r.type ≠ .res) (key : EntryKey) :
    key.modifiedBy r = key := by
  cases key with
  | res name rid => rw [modifiedBy, if_neg fun hr => h hr.1]
  | ebx | chunk => rfl

theorem modifiedBy_of_name {r : ModResource} {key : EntryKey} (h : r.name ≠ key.resName) :
    key.modifiedBy r = key := by
  cases key with
  | res name rid => rw [modifiedBy, if_neg fun hr => h hr.2]
  | ebx | chunk => rfl

end EntryKey

namespace BundleManifest

variable {m m' : BundleManifest} {r : ModResource} {type : AssetType}

def keys (m : BundleManifest) (type : AssetType) : List EntryKey := (m.entries type).map Entry.key

theorem entryCount_eq_keys (m : BundleManifest) :
    m.entryCount = (m.keys .ebx).length + (m.keys .res).length + (m.keys .chunk).length := by
  simp [entryCount, keys, entries]

/-- Each res has a name of its own, and the name has a position in the bundle. -/
structure ResNamed (loader : Loader) (b : UInt32) (m : BundleManifest) : Prop where
  nodup : ((m.keys .res).map EntryKey.resName).Nodup
  position : ∀ key ∈ m.keys .res, (loader.vanilla.position .res key.resName b).isSome

theorem ResNamed.modifiedBy {loader : Loader} {b : UInt32} (h : ResNamed loader b m)
    (hkeys : m'.keys .res = (m.keys .res).map (·.modifiedBy r)) : ResNamed loader b m' := by
  have hnames : (m'.keys .res).map EntryKey.resName = (m.keys .res).map EntryKey.resName := by
    rw [hkeys, List.map_map]
    exact List.map_congr_left fun key _ => EntryKey.resName_modifiedBy key r
  refine ⟨by rw [hnames]; exact h.nodup, fun key hkey => ?_⟩
  rw [hkeys] at hkey
  obtain ⟨key₀, hkey₀, rfl⟩ := List.mem_map.mp hkey
  rw [EntryKey.resName_modifiedBy]
  exact h.position key₀ hkey₀

/-! A resource leaves the keys alone that are not those of a res, or of a res of another name,
or all if it is no res itself. -/

theorem map_modifiedBy_of_section (m : BundleManifest) (r : ModResource) {t : AssetType}
    (ht : t ≠ .res) : (m.keys t).map (·.modifiedBy r) = m.keys t := by
  rw [keys, List.map_map]
  refine List.map_congr_left fun e he => ?_
  cases t with
  | ebx | chunk =>
      obtain ⟨x, -, rfl⟩ := List.mem_map.mp he
      rfl
  | res => exact absurd rfl ht

theorem map_modifiedBy_of_name {keys : List EntryKey} (h : ∀ key ∈ keys, r.name ≠ key.resName) :
    keys.map (·.modifiedBy r) = keys :=
  (List.map_congr_left fun key hkey => EntryKey.modifiedBy_of_name (h key hkey)).trans
    (List.map_id _)

theorem map_modifiedBy_of_type (h : r.type ≠ .res) (keys : List EntryKey) :
    keys.map (·.modifiedBy r) = keys :=
  (List.map_congr_left fun key _ => EntryKey.modifiedBy_of_type h key).trans (List.map_id _)

theorem modifyWith_keys (htype : r.type.assetType = some type)
    (hnodup : ((m.keys .res).map EntryKey.resName).Nodup) (h : m.modifyWith r type = .ok m')
    (t : AssetType) : m'.keys t = (m.keys t).map (·.modifiedBy r) := by
  have hentries := modifyWith_entries h
  by_cases ht : t = type
  case neg =>
    have hsame : m'.keys t = m.keys t := by rw [keys, keys, hentries, Function.update_of_ne ht]
    rw [hsame]
    by_cases hres : t = .res
    · refine (map_modifiedBy_of_type (fun htype' => ht ?_) _).symm
      rw [htype'] at htype
      exact hres.trans (Option.some.inj htype)
    · exact (map_modifiedBy_of_section m r hres).symm
  case pos =>
    subst ht
    rw [keys, hentries, Function.update_self]
    cases t with
    | ebx =>
        rw [map_modifiedBy_of_section m r (by decide), keys]
        refine map_modifyFirst (fun e he hname => ?_) (fun _ _ _ => rfl)
          (List.pairwise_of_forall fun _ _ _ => rfl)
        obtain ⟨x, -, rfl⟩ := List.mem_map.mp he
        exact congrArg EntryKey.ebx (beq_iff_eq.mp hname).symm
    | chunk =>
        rw [map_modifiedBy_of_section m r (by decide), keys]
        refine map_modifyFirst (fun e he hguid => ?_) (fun _ _ _ => rfl)
          (List.pairwise_of_forall fun _ _ _ => rfl)
        obtain ⟨x, -, rfl⟩ := List.mem_map.mp he
        exact congrArg EntryKey.chunk (beq_iff_eq.mp hguid).symm
    | res =>
        rw [keys, List.map_map]
        refine map_modifyFirst (fun e he hname => ?_) (fun e he hname => ?_) ?_
        · obtain ⟨x, -, rfl⟩ := List.mem_map.mp he
          have hname : x.name = r.name := beq_iff_eq.mp hname
          simp [Entry.key, ModResource.entry, ModResource.resEntry, EntryKey.modifiedBy,
            assetType_res htype, hname]
        · obtain ⟨x, -, rfl⟩ := List.mem_map.mp he
          have hname : x.name ≠ r.name := by simpa [ModResource.names, Entry.key] using hname
          refine (EntryKey.modifiedBy_of_name fun heq => hname ?_).symm
          exact heq.symm
        · rw [keys, List.map_map, entries, List.map_map, List.Nodup, List.pairwise_map] at hnodup
          refine List.pairwise_map.mpr (hnodup.imp fun {x y} hne hname => ?_)
          have hname : x.name = r.name := beq_iff_eq.mp hname
          refine (EntryKey.modifiedBy_of_name fun heq => hne ?_).symm
          exact hname.trans heq

variable {loader : Loader} {b : UInt32}

/-- A resource without a position has the name of no entry. -/
theorem keys_of_absent (hnamed : ResNamed loader b m)
    (habsent : ∀ type, r.type.assetType = some type →
      loader.vanilla.position type r.name b = none) (t : AssetType) :
    (m.keys t).map (·.modifiedBy r) = m.keys t := by
  by_cases ht : t = .res
  case neg => exact map_modifiedBy_of_section m r ht
  case pos =>
    subst ht
    by_cases hres : r.type = .res
    · refine map_modifiedBy_of_name fun key hkey hname => ?_
      have hsome := hnamed.position key hkey
      rw [← hname, habsent .res (by rw [hres]; rfl)] at hsome
      cases hsome
    · exact map_modifiedBy_of_type hres _

/-- The first resources of their ids, without those that have been seen. -/
def unseen (visited : Std.TreeSet UInt32) (rs : List ModResource) : List ModResource :=
  (firsts (·.uniqueIdWithType) rs).filter fun r => r.uniqueIdWithType ∉ visited

theorem unseen_of_mem {visited : Std.TreeSet UInt32} (h : r.uniqueIdWithType ∈ visited)
    (rs : List ModResource) : unseen visited (r :: rs) = unseen visited rs := by
  rw [unseen, firsts, List.filter_cons_of_neg (by simpa using h), List.filter_filter]
  refine List.filter_congr fun r' _ => ?_
  by_cases hid : r'.uniqueIdWithType = r.uniqueIdWithType
  · simp [hid, h]
  · simp [hid]

theorem unseen_of_not_mem {visited : Std.TreeSet UInt32} (h : r.uniqueIdWithType ∉ visited)
    (rs : List ModResource) :
    unseen visited (r :: rs) = r :: unseen (visited.insert r.uniqueIdWithType) rs := by
  rw [unseen, firsts, List.filter_cons_of_pos (by simpa using h), List.filter_filter]
  refine congrArg _ (List.filter_congr fun r' _ => ?_)
  rw [← Bool.decide_and, decide_eq_decide, mem_insert_iff, not_or, and_comm]

/-- What the loop over the mods' resources makes of the keys: of the resources of one id the
first counts. -/
theorem modifyEntries_keys {rs : List ModResource} {visited : Std.TreeSet UInt32}
    (hnamed : ResNamed loader b m) (h : modifyEntries loader b rs visited m = .ok m') :
    ∀ t, m'.keys t = (m.keys t).map fun key =>
      (unseen visited (active b rs)).foldl EntryKey.modifiedBy key := by
  induction rs generalizing visited m with
  | nil =>
      cases h
      exact fun t => (List.map_id _).symm
  | cons r rs ih =>
      by_cases hdata : r.HasData
      case neg =>
        have hskip : r.resourceIndex = -1 ∨ r.handlerHash ≠ 0 := by
          by_contra hcon
          rw [not_or, not_not] at hcon
          exact hdata ⟨hcon.2, hcon.1⟩
        rw [modifyEntries, if_pos hskip, ite_self] at h
        rw [active, List.filter_cons_of_neg (by simp [hdata])]
        exact ih hnamed h
      case pos =>
        obtain ⟨visited₁, m₁, hround, hrest⟩ := modifyEntries_round hdata h
        have hactive (hb : r.containsBundle b = false) :
            active b (r :: rs) = r :: active b rs := List.filter_cons_of_pos (by simp [hb, hdata])
        cases hround with
        | later hb =>
            rw [active, List.filter_cons_of_neg (by simp [hb])]
            exact ih hnamed hrest
        | seen hmem =>
            by_cases hb : r.containsBundle b = true
            · rw [active, List.filter_cons_of_neg (by simp [hb])]
              exact ih hnamed hrest
            · rw [hactive (Bool.eq_false_iff.mpr hb), unseen_of_mem hmem]
              exact ih hnamed hrest
        | absent hb hnew habsent =>
            intro t
            rw [hactive hb, unseen_of_not_mem hnew, ih hnamed hrest t,
              ← keys_of_absent hnamed habsent t, List.map_map, keys_of_absent hnamed habsent t]
            rfl
        | modified hb hnew htype _ hmod =>
            intro t
            have hkeys := modifyWith_keys htype hnamed.nodup hmod
            rw [hactive hb, unseen_of_not_mem hnew,
              ih (hnamed.modifiedBy (hkeys .res)) hrest t, hkeys t, List.map_map]
            rfl

/-- The keys of the vanilla entries when the loop is over. -/
theorem modifyEntries_vanillaKeys (hnamed : ResNamed loader b m)
    (h : modifyEntries loader b loader.mods.modResources {} m = .ok m') (t : AssetType) :
    m'.keys t = vanillaKeys loader b m t := by
  have hall : unseen {} (active b loader.mods.modResources) = modifiers loader b :=
    List.filter_eq_self.mpr (by simp)
  rw [modifyEntries_keys hnamed h t, hall, keys, List.map_map]
  rfl

theorem resNamed_vanilla {entry : BundleEntry} (hagg : AggregatedBundle loader.vanilla b entry m) :
    ResNamed loader b m := by
  have hplace : ∀ (i : Nat) (key : EntryKey), (m.keys .res)[i]? = some key →
      ∃ position, loader.vanilla.position .res key.resName b = some position ∧
        position.toNat = m.place .res i := by
    intro i key hkey
    rw [keys, List.getElem?_map] at hkey
    obtain ⟨e, he, rfl⟩ := Option.map_eq_some_iff.mp hkey
    obtain ⟨name, position, hnamed, hposition, hplace⟩ := hagg.positioned .res i e he
    obtain ⟨x, -, rfl⟩ := List.mem_map.mp (List.mem_of_getElem? he)
    refine ⟨position, ?_, hplace⟩
    rw [← hposition, ← (hnamed : x.name = name)]
    rfl
  constructor
  case nodup =>
    rw [List.nodup_iff_injective_getElem]
    rintro ⟨i, hi⟩ ⟨j, hj⟩ hij
    rw [List.length_map] at hi hj
    dsimp only at hij
    rw [List.getElem_map, List.getElem_map] at hij
    obtain ⟨position, hposition, hi'⟩ := hplace i _ (List.getElem?_eq_getElem hi)
    obtain ⟨position', hposition', hj'⟩ := hplace j _ (List.getElem?_eq_getElem hj)
    rw [hij, hposition'] at hposition
    cases hposition
    rw [hi'] at hj'
    simp only [place] at hj'
    exact Fin.ext (by dsimp only; omega)
  case position =>
    intro key hkey
    obtain ⟨i, hi⟩ := List.mem_iff_getElem?.mp hkey
    obtain ⟨position, hposition, -⟩ := hplace i key hi
    rw [hposition]
    rfl

/-! ## The additions of the bundle's pass -/

/-- A resource that is taken for an entry has what another resource is taken for it by. -/
theorem finds_entry {e : Entry} (he : e ∈ m.entries type) (hfinds : r.finds e.key = true)
    (r' : ModResource) : r'.finds (r.entry type).key = r'.finds e.key := by
  cases type with
  | ebx =>
      obtain ⟨x, -, rfl⟩ := List.mem_map.mp he
      exact congrArg (· == r'.name) (beq_iff_eq.mp hfinds).symm
  | res =>
      obtain ⟨x, -, rfl⟩ := List.mem_map.mp he
      exact congrArg (· == r'.data.resRid) (beq_iff_eq.mp hfinds).symm
  | chunk =>
      obtain ⟨x, -, rfl⟩ := List.mem_map.mp he
      exact congrArg (· == Guid.fromString r'.name) (beq_iff_eq.mp hfinds).symm

/-- What resources find in a section. -/
def findable (m : BundleManifest) (type : AssetType) (r : ModResource) : Bool :=
  (m.entries type).any fun e => r.finds e.key

/-- One entry more in a section. -/
structure Appended (m : BundleManifest) (type : AssetType) (key : EntryKey)
    (m' : BundleManifest) : Prop where
  findable : ∀ t r, m'.findable t r
    = (m.findable t r || (t = type && r.finds key))
  count : m'.entryCount = m.entryCount + 1

/-- As many entries, and the same are found. -/
structure Replaced (m m' : BundleManifest) : Prop where
  findable : ∀ t r, m'.findable t r = m.findable t r
  count : m'.entryCount = m.entryCount

theorem entryCount_eq_entries (m : BundleManifest) :
    m.entryCount = (m.entries .ebx).length + (m.entries .res).length + (m.entries .chunk).length := by
  simp [entryCount, entries]

theorem Replaced.of_entries (h : m'.entries = m.entries) : Replaced m m' where
  findable t r := by rw [BundleManifest.findable, BundleManifest.findable, h]
  count := by rw [entryCount_eq_entries, entryCount_eq_entries, h]

theorem Appended.of_entries {e : Entry}
    (h : m'.entries = Function.update m.entries type (m.entries type ++ [e])) :
    Appended m type e.key m' where
  findable t r := by
    rw [BundleManifest.findable, BundleManifest.findable, h]
    by_cases ht : t = type
    · subst ht
      rw [Function.update_self, List.any_append]
      simp
    · rw [Function.update_of_ne ht]
      simp [ht]
  count := by
    rw [entryCount_eq_entries, entryCount_eq_entries, h]
    cases type <;> simp [Function.update] <;> omega

theorem length_modifyFirst {α : Type} (p : α → Bool) (f : α → α) (l : List α) :
    (modifyFirst p f l).length = l.length := by
  induction l with
  | nil => rfl
  | cons a l ih =>
      rw [modifyFirst]
      split
      next => rfl
      next => rw [List.length_cons, ih, List.length_cons]

theorem Replaced.of_modifyFirst
    (h : m'.entries = Function.update m.entries type
      (modifyFirst (fun e => r.finds e.key) (fun _ => r.entry type) (m.entries type))) :
    Replaced m m' where
  findable t r' := by
    rw [BundleManifest.findable, BundleManifest.findable, h]
    by_cases ht : t = type
    · subst ht
      have hmap : (modifyFirst (fun e => r.finds e.key) (fun _ => r.entry t) (m.entries t)).map
          (fun e => r'.finds e.key) = (m.entries t).map fun e => r'.finds e.key :=
        map_modifyFirst (fun e he hfinds => finds_entry he hfinds r') (fun _ _ _ => rfl)
          (List.pairwise_of_forall fun _ _ _ => rfl)
      have hany := congrArg (fun l => l.any id) hmap
      rw [List.any_map, List.any_map] at hany
      rw [Function.update_self]
      exact hany
    · rw [Function.update_of_ne ht]
  count := by
    have hlength : ∀ t, (m'.entries t).length = (m.entries t).length := by
      intro t
      rw [h]
      by_cases ht : t = type
      · subst ht
        rw [Function.update_self, length_modifyFirst]
      · rw [Function.update_of_ne ht]
    rw [entryCount_eq_entries, entryCount_eq_entries, hlength, hlength, hlength]

/-- A resource with data is added, or takes the place of what it is taken for. -/
theorem addWith_cases (h : m.addWith r type = .ok m') :
    (m.findable type r = true ∧ Replaced m m') ∨
      (m.findable type r = false ∧ Appended m type (r.entry type).key m') := by
  have hentries := addWith_entries h
  cases hfound : (m.entries type).any fun e => r.finds e.key with
  | false =>
      rw [hfound, if_neg Bool.false_ne_true] at hentries
      exact .inr ⟨hfound, .of_entries hentries⟩
  | true =>
      rw [hfound, if_pos rfl] at hentries
      exact .inl ⟨hfound, .of_modifyFirst hentries⟩

/-- What is found when the resources `before` have been merged into a vanilla bundle. -/
def Brings (loader : Loader) (b : UInt32) (vanilla : BundleManifest) (before : List ModResource)
    (m : BundleManifest) : Prop :=
  ∀ type r, m.findable type r = isFound loader b vanilla before r type

section Round

variable {vanilla : BundleManifest} {before : List ModResource}

theorem Brings.concat (h : Brings loader b vanilla before m)
    (hfindable : ∀ t r', m'.findable t r'
      = (m.findable t r' || (keyOf loader t r).any r'.finds)) :
    Brings loader b vanilla (before ++ [r]) m' := by
  intro t r'
  rw [hfindable, h t r', isFound, isFound, List.filterMap_append, ← List.append_assoc,
    List.any_append]
  cases hkey : keyOf loader t r <;> simp [hkey, Bool.or_assoc]

theorem keyOf_of_type {key : Option EntryKey} (htype : r.type.assetType = some type)
    (hkey : keyOf loader type r = key) (t : AssetType) (p : EntryKey → Bool) :
    (keyOf loader t r).any p = (decide (t = type) && key.any p) := by
  by_cases ht : t = type
  · subst ht
    simp [hkey]
  · rw [keyOf, if_neg (by rw [htype]; simpa using Ne.symm ht)]
    simp [ht]

/-- A resource with data. -/
theorem addWith_counts (hbrings : Brings loader b vanilla before m)
    (htype : r.type.assetType = some type) (hdata : r.HasData) (h : m.addWith r type = .ok m') :
    Brings loader b vanilla (before ++ [r]) m' ∧
      m'.entryCount + (if mistaken loader b vanilla before r then 1 else 0)
        = m.entryCount + (addedType loader b r).toList.length
          + (if unfound loader b vanilla before r then 1 else 0) := by
  have hkey : keyOf loader type r = some (r.entry type).key := by
    rw [keyOf, if_pos htype, if_pos hdata]
  rw [addedType_of_data htype hdata, mistaken, unfound, htype, Option.any_some, Option.any_some,
    ← hbrings type r]
  rcases addWith_cases h with ⟨hfound, hreplaced⟩ | ⟨hfound, happended⟩
  · refine ⟨hbrings.concat fun t r' => ?_, ?_⟩
    · rw [hreplaced.findable, keyOf_of_type htype hkey]
      by_cases ht : t = type
      · subst ht
        obtain ⟨e, he, hfinds⟩ := List.any_eq_true.mp hfound
        have hown := finds_entry he hfinds r'
        cases hr' : r'.finds (r.entry t).key with
        | false => simp [hr']
        | true =>
            rw [hr'] at hown
            have hthere : m.findable t r' = true := List.any_eq_true.mpr ⟨e, he, hown.symm⟩
            simp [hthere]
      · simp [ht]
    · rw [hreplaced.count, hfound]
      cases loader.vanilla.position type r.name b <;> simp [hdata]
  · refine ⟨hbrings.concat fun t r' => ?_, ?_⟩
    · rw [happended.findable, keyOf_of_type htype hkey, Option.any_some]
    · rw [happended.count, hfound]
      cases loader.vanilla.position type r.name b <;> simp [hdata]

/-- A resource without data, whose vanilla entry is there if it is dereferenced. -/
theorem addUnchanged_counts (hbrings : Brings loader b vanilla before m)
    (htype : r.type.assetType = some type) (hdata : ¬ r.HasData)
    (hbacked : LayoutManifest.Backed loader r) (h : m.addUnchanged loader r type = .ok m') :
    Brings loader b vanilla (before ++ [r]) m' ∧
      m'.entryCount + (if mistaken loader b vanilla before r then 1 else 0)
        = m.entryCount + (addedType loader b r).toList.length
          + (if unfound loader b vanilla before r then 1 else 0) := by
  have hkey : keyOf loader type r = (unchangedEntry loader r type).map Entry.key := by
    rw [keyOf, if_pos htype, if_neg hdata]
  obtain ⟨file, hfile⟩ := hbacked type htype hdata
  rw [addedType_of_noData htype hdata, mistaken, unfound, htype, Option.any_some, Option.any_some]
  obtain ⟨rfl, hentries⟩ | ⟨f, e, rfl, he, hentries⟩ := addUnchanged_entries hfile h
  · have hnone : unchangedEntry loader r type = none := by
      have hsome := LayoutManifest.unchangedEntry_of_file hfile
      rwa [Option.isSome_none, Option.isSome_eq_false_iff, Option.isNone_iff_eq_none] at hsome
    have hreplaced := Replaced.of_entries hentries
    refine ⟨hbrings.concat fun t r' => ?_, ?_⟩
    · rw [hreplaced.findable, keyOf_of_type htype hkey, hnone]
      simp
    · rw [hreplaced.count, hnone]
      simp [hdata]
  · have happended := Appended.of_entries hentries
    refine ⟨hbrings.concat fun t r' => ?_, ?_⟩
    · rw [happended.findable, keyOf_of_type htype hkey, he]
      rfl
    · rw [happended.count, he]
      simp [hdata]

theorem addEntry_counts (hbrings : Brings loader b vanilla before m)
    (hbacked : LayoutManifest.Backed loader r) (h : addEntry loader r m = .ok m') :
    Brings loader b vanilla (before ++ [r]) m' ∧
      m'.entryCount + (if mistaken loader b vanilla before r then 1 else 0)
        = m.entryCount + (addedType loader b r).toList.length
          + (if unfound loader b vanilla before r then 1 else 0) := by
  unfold addEntry at h
  cases htype : r.type.assetType with
  | none =>
      rw [htype] at h
      cases h
      refine ⟨hbrings.concat fun t r' => ?_, ?_⟩
      · simp [keyOf, htype]
      · simp [mistaken, unfound, addedType, htype]
  | some type =>
      rw [htype] at h
      dsimp only at h
      split at h
      next hdata => exact addWith_counts hbrings htype hdata h
      next hdata => exact addUnchanged_counts hbrings htype hdata hbacked h

/-- The entries that are added: as the layout's pass adds files, but for those that are
mistaken and with those that are not found. -/
theorem addEntries_counts {rs : List ModResource} (hbrings : Brings loader b vanilla before m)
    (hbacked : ∀ r ∈ rs, LayoutManifest.Backed loader r) (h : addEntries loader rs m = .ok m') :
    m'.entryCount + countAmong (mistaken loader b vanilla) before rs
      = m.entryCount + (rs.filterMap (addedType loader b)).length
        + countAmong (unfound loader b vanilla) before rs := by
  induction rs generalizing m before with
  | nil =>
      cases h
      rfl
  | cons r rs ih =>
      obtain ⟨m₁, hadd, hrest⟩ := bind_eq_ok h
      obtain ⟨hbrings₁, hcount⟩ := addEntry_counts hbrings (hbacked r List.mem_cons_self) hadd
      have hrec := ih hbrings₁ (fun r' hr' => hbacked r' (List.mem_cons_of_mem r hr')) hrest
      have hlength : ((r :: rs).filterMap (addedType loader b)).length
          = (addedType loader b r).toList.length + (rs.filterMap (addedType loader b)).length := by
        rw [List.filterMap_cons]
        cases addedType loader b r with
        | none => simp
        | some type => simp [Nat.add_comm]
      rw [countAmong, countAmong, hlength]
      omega

end Round

end BundleManifest

/-! ## Both passes -/

section Both

variable {loader : Loader} {m m' : LayoutManifest} {entries entries' : BundleEntries}
  {manifests : UInt32 → BundleManifest}

theorem isFound_nil (loader : Loader) (b : UInt32) (vanilla : BundleManifest) (type : AssetType)
    (r : ModResource) :
    isFound loader b vanilla [] r type = (vanillaKeys loader b vanilla type).any r.finds := by
  rw [isFound, List.filterMap_nil, List.append_nil]

/-- The entries that are added to the manifest of a vanilla bundle. -/
theorem entryCount_merged (hagg : Aggregation loader m entries manifests) {name : ByteString}
    {b : UInt32} (hb : m.IsVanilla loader name b)
    (hbacked : ∀ r ∈ loader.mods.resourcesOf b, LayoutManifest.Backed loader r)
    {merged : BundleManifest} (h : mergeBundleManifest loader name (manifests b) = .ok merged) :
    merged.entryCount
        + countAmong (mistaken loader b (manifests b)) [] (loader.mods.resourcesOf b)
      = (manifests b).entryCount
        + ((loader.mods.resourcesOf b).filterMap (addedType loader b)).length
        + countAmong (unfound loader b (manifests b)) [] (loader.mods.resourcesOf b) := by
  obtain ⟨info, hget⟩ := Option.isSome_iff_exists.mp
    (Std.TreeMap.contains_eq_isSome_getElem?.symm.trans hb.present)
  have hnamed := BundleManifest.resNamed_vanilla (hagg.vanilla b info hget).2
  rw [mergeBundleManifest, ← hb.hash, if_neg (by simp [hb.notAdded])] at h
  obtain ⟨m₁, hmodify, hadd⟩ := bind_eq_ok h
  have hkeys := BundleManifest.modifyEntries_vanillaKeys hnamed hmodify
  have hcount : m₁.entryCount = (manifests b).entryCount := by
    have hlength : ∀ t, (m₁.keys t).length = ((manifests b).keys t).length := by
      intro t
      rw [hkeys, vanillaKeys, List.length_map, BundleManifest.keys, List.length_map]
    rw [BundleManifest.entryCount_eq_keys, BundleManifest.entryCount_eq_keys, hlength, hlength,
      hlength]
  rw [← hcount]
  refine BundleManifest.addEntries_counts (fun type r => ?_) hbacked hadd
  rw [isFound_nil, ← hkeys, BundleManifest.findable, BundleManifest.keys, List.any_map]
  rfl

end Both

theorem LengthsAgree.keepsLengths {loader : Loader} {m : LayoutManifest} {entries : BundleEntries}
    {manifests : UInt32 → BundleManifest} (h : LengthsAgree loader m entries manifests)
    (hagg : Aggregation loader m entries manifests) : KeepsLengths loader m entries manifests := by
  obtain ⟨m', entries', hmerge, hlengths⟩ := h
  obtain ⟨hbundle, hbacked⟩ := (mergeLayoutManifest_ok_iff hagg).mp ⟨m', entries', hmerge⟩
  refine ⟨hbundle, hbacked, fun name b merged hb hmerged => ?_⟩
  obtain ⟨n, hfiles, hentries⟩ := hlengths name b merged hb hmerged
  have hlayout := fileCount_merged hagg hb hmerge
  have hmanifest := entryCount_merged hagg hb (hbacked b) hmerged
  unfold Balanced
  omega

/-- The passes agree on the lengths exactly if nothing is dereferenced that is not there, and
in every bundle the resources that only one of them adds make up for those that only the
other does. -/
theorem lengthsAgree_iff (loader : Loader) (m : LayoutManifest) (entries : BundleEntries)
    (manifests : UInt32 → BundleManifest) (hagg : Aggregation loader m entries manifests) :
    LengthsAgree loader m entries manifests ↔ KeepsLengths loader m entries manifests := by
  refine ⟨fun h => h.keepsLengths hagg, fun h => ?_⟩
  obtain ⟨m', entries', hlayout⟩ := (mergeLayoutManifest_ok_iff hagg).mpr ⟨h.bundle, h.backed⟩
  refine ⟨m', entries', hlayout, fun name b merged hb hmerged => ?_⟩
  have hbalanced := h.balanced name b merged hb hmerged
  have hfiles := fileCount_merged hagg hb hlayout
  have hentries := entryCount_merged hagg hb (h.backed b) hmerged
  have hturned := turnedAway_le (entries.at b)
    ((loader.mods.resourcesOf b).filterMap (addedType loader b))
  unfold Balanced at hbalanced
  exact ⟨m'.fileCount b - m.fileCount b, by omega, by omega⟩

/-! ## The bundle of the sample, and other mods -/

namespace Sample

theorem isVanilla {loader : Loader} {name : ByteString} {b : UInt32}
    (h : layout.IsVanilla loader name b) : b = bundle := by
  have hpresent := h.present
  rw [layout, Std.TreeMap.contains_eq_isSome_getElem?, getElem?_insert_eq] at hpresent
  split at hpresent
  next hb => exact hb
  next => simp at hpresent

theorem balanced :
    Balanced loader bundle (entries.at bundle) manifest (loader.mods.resourcesOf bundle) := by
  simp only [Balanced, loader, finalizeModLoads]
  rw [mergeSort_eq]
  decide

end Sample

theorem lengthsAgree_sample :
    LengthsAgree Sample.loader Sample.layout Sample.entries fun _ => Sample.manifest :=
  (lengthsAgree_iff Sample.loader Sample.layout Sample.entries _ Sample.aggregation).mpr
    { bundle := .inr ⟨Sample.bundle, by decide⟩
      backed := Sample.backed
      balanced := fun name b merged hb _ => by
        rw [Sample.isVanilla hb]
        exact Sample.balanced }

namespace Sample

/-- The vanilla bundle with one resource of a mod. -/
def loaderWith (r : ModResource) : Loader :=
  { loader with mods := finalizeModLoads [{ resources := [r] }] }

theorem aggregation_with {r : ModResource} (htype : r.type ≠ .bundle) :
    Aggregation (loaderWith r) layout entries fun _ => manifest where
  vanilla := aggregation.vanilla
  new b hb := by
    obtain ⟨r', hr', -⟩ := List.mem_map.mp hb
    obtain ⟨hr', htype'⟩ := List.mem_filter.mp hr'
    rw [loaderWith, modResources_eq] at hr'
    obtain ⟨r₀, hr₀, rfl⟩ := List.mem_map.mp hr'
    rw [mem_sorted] at hr₀
    have hr₀ : r₀ = r := by simpa [byPriority] using hr₀
    subst hr₀
    simp [htype] at htype'

theorem mergeSort_single (r : ModResource) :
    (byPriority [{ resources := [r] }]).mergeSort leType = [r] := List.mergeSort_singleton _

/-- The ebx `z` without data, which no vanilla bundle has. -/
def dataless : ModResource := { new with resourceIndex := -1 }

/-- The res `w`, with the rid of the vanilla res `y`. -/
def sameRid : ModResource :=
  { new with
    type := .res
    name := [0x77]
    uniqueIdWithType := idWithType .res [0x77]
    data := { new.data with resRid := 7 } }

theorem resourcesOf_dataless : (loaderWith dataless).mods.resourcesOf bundle = [dataless] := by
  simp only [loaderWith, finalizeModLoads]
  rw [mergeSort_single]
  decide

theorem not_balanced_sameRid :
    ¬ Balanced (loaderWith sameRid) bundle (entries.at bundle) manifest
      ((loaderWith sameRid).mods.resourcesOf bundle) := by
  simp only [Balanced, loaderWith, finalizeModLoads]
  rw [mergeSort_single]
  decide

end Sample

/-- A resource without data, whose vanilla entry is not there but dereferenced; and a res that is
a file more for the bundle, while its entry takes the place of another one. -/
theorem lengths_differ :
    (Aggregation (Sample.loaderWith Sample.dataless) Sample.layout Sample.entries
        (fun _ => Sample.manifest) ∧
      ¬ LengthsAgree (Sample.loaderWith Sample.dataless) Sample.layout Sample.entries
        fun _ => Sample.manifest) ∧
    Aggregation (Sample.loaderWith Sample.sameRid) Sample.layout Sample.entries
        (fun _ => Sample.manifest) ∧
      ¬ LengthsAgree (Sample.loaderWith Sample.sameRid) Sample.layout Sample.entries
        fun _ => Sample.manifest := by
  have hdataless := @Sample.aggregation_with Sample.dataless (by decide)
  have hsameRid := @Sample.aggregation_with Sample.sameRid (by decide)
  refine ⟨⟨hdataless, fun h => ?_⟩, hsameRid, fun h => ?_⟩
  · have hbacked := (h.keepsLengths hdataless).backed Sample.bundle Sample.dataless
    rw [Sample.resourcesOf_dataless] at hbacked
    obtain ⟨file, hfile⟩ := hbacked List.mem_cons_self .ebx rfl (by decide)
    cases hfile
  · obtain ⟨merged, hmerged⟩ := mergeBundleManifest_total (m := Sample.manifest) ⟨[], rfl, by simp⟩
      (Sample.loaderWith Sample.sameRid) [0x61]
    exact Sample.not_balanced_sameRid ((h.keepsLengths hsameRid).balanced [0x61] Sample.bundle
      merged ⟨rfl, by decide, by decide⟩ hmerged)

end Kyber.ModLoader
