import Kyber.Lib.Maps
import Kyber.ModLoader.Merge
import Kyber.Proofs.LayoutCodec

/-!
# What a change of the layout can do

One lemma for each operation that says everything it can do, so that what the
passes keep is read off those and not off the code: `AddFileToBundle` either
leaves everything alone or puts a file at the end of a section and counts it,
`SetFileInfo` replaces a file in place, and `AddBundle` only makes new bundles.

The aggregation is compared by what `operator[]` finds in it. A look-up that
leaves a default entry behind changes nothing then.
-/

namespace Kyber.ModLoader

open Kyber.Lib

/-! ## The aggregation -/

namespace BundleEntries

@[simp] theorem at_touch (entries : BundleEntries) (a b : UInt32) :
    (entries.touch a).at b = entries.at b := by
  unfold BundleEntries.at touch
  rw [Std.TreeMap.getD_eq_getD_getElem?, Std.TreeMap.getElem?_insertIfNew,
    Std.TreeMap.getD_eq_getD_getElem?]
  split
  next h =>
    obtain ⟨hc, hmem⟩ := h
    rw [Std.LawfulEqCmp.eq_of_compare hc] at hmem
    rw [Std.TreeMap.mem_iff_isSome_getElem?, Bool.not_eq_true, Option.isSome_eq_false_iff,
      Option.isNone_iff_eq_none] at hmem
    rw [hmem]
    rfl
  next => rfl

theorem at_insert (entries : BundleEntries) (a b : UInt32) (entry : BundleEntry) :
    BundleEntries.at (entries.insert a entry) b = if b = a then entry else entries.at b :=
  getD_insert_eq entries a b entry {}

/-- Every bundle has the same entry in both. -/
def Agree (entries entries' : BundleEntries) : Prop := ∀ b, entries.at b = entries'.at b

theorem Agree.refl (entries : BundleEntries) : entries.Agree entries := fun _ => rfl

theorem Agree.trans {e₁ e₂ e₃ : BundleEntries} (h₁ : e₁.Agree e₂) (h₂ : e₂.Agree e₃) :
    e₁.Agree e₃ := fun b => (h₁ b).trans (h₂ b)

theorem Agree.touch {entries entries' : BundleEntries} (h : entries.Agree entries') (a : UInt32) :
    (entries.touch a).Agree (entries'.touch a) := by
  intro b
  rw [at_touch, at_touch, h b]

theorem agree_touch (entries : BundleEntries) (a : UInt32) :
    (entries.touch a).Agree entries := fun b => at_touch entries a b

theorem Agree.insert {entries entries' : BundleEntries} (h : entries.Agree entries') (a : UInt32)
    (entry : BundleEntry) : Agree (entries.insert a entry) (entries'.insert a entry) := by
  intro b
  rw [at_insert, at_insert, h b]

end BundleEntries

/-! ## The operations -/

namespace LayoutManifest

/-- A file for the bundle would be turned away before anything is changed. -/
def Refuses (addedBundles : Std.TreeSet UInt32) (bundleHash : UInt32) (entry : BundleEntry) :
    Prop :=
  addedBundles.contains bundleHash = false ∧ (entry.hash ≠ bundleHash ∨ entry.tooMany = true)

instance (addedBundles : Std.TreeSet UInt32) (bundleHash : UInt32) (entry : BundleEntry) :
    Decidable (Refuses addedBundles bundleHash entry) :=
  inferInstanceAs (Decidable (_ ∧ _))

/-- Everything that `AddFileToBundle` can do. -/
inductive FileAdded (m : LayoutManifest) (entries : BundleEntries)
    (addedBundles : Std.TreeSet UInt32) (bundleHash : UInt32) (file : FileInfo)
    (type : AssetType) : LayoutManifest → BundleEntries → Prop
  /-- The bundle is not there, or is filed under a wrong hash, or turns files away. -/
  | ignored {entries' : BundleEntries}
      (why : ∀ info, m.bundleInfo[bundleHash]? = some info →
        info.hash ≠ bundleHash ∨ Refuses addedBundles bundleHash (entries.at bundleHash))
      (agree : entries'.Agree entries) :
      FileAdded m entries addedBundles bundleHash file type m entries'
  | inserted {info : BundleInfo} {entries' : BundleEntries}
      (get : m.bundleInfo[bundleHash]? = some info) (hash : info.hash = bundleHash)
      (accepts : ¬ Refuses addedBundles bundleHash (entries.at bundleHash))
      (bound : (entries.at bundleHash).sectionEnd type ≤ info.files.length)
      (at_eq : ∀ b, entries'.at b
        = if b = bundleHash then (entries.at bundleHash).count type else entries.at b) :
      FileAdded m entries addedBundles bundleHash file type
        { m with
          bundleInfo := m.bundleInfo.insert bundleHash
            { info with
              files := info.files.insertIdx ((entries.at bundleHash).sectionEnd type) file } }
        entries'

theorem addFileToBundle_ok {m m' : LayoutManifest} {entries entries' : BundleEntries}
    {addedBundles : Std.TreeSet UInt32} {bundleHash : UInt32} {file : FileInfo}
    {type : AssetType}
    (h : m.addFileToBundle entries addedBundles bundleHash file type = .ok (m', entries')) :
    FileAdded m entries addedBundles bundleHash file type m' entries' := by
  unfold addFileToBundle at h
  split at h
  next hget =>
    cases h
    exact .ignored (by simp [hget]) (.refl _)
  next info hget =>
    split at h
    next hhash =>
      cases h
      exact .ignored (by simp [hget, hhash]) (.refl _)
    next hhash =>
      dsimp only at h
      split at h
      next hr =>
        cases h
        simp only [Bool.and_eq_true, Bool.not_eq_true', bne_iff_ne] at hr
        exact .ignored (fun _ _ => .inr ⟨hr.1, .inl hr.2⟩) (BundleEntries.agree_touch _ _)
      next hr =>
        simp only [Bool.and_eq_true, Bool.not_eq_true', bne_iff_ne, not_and] at hr
        split at h
        next hmany =>
          cases h
          simp only [Bool.and_eq_true, Bool.not_eq_true'] at hmany
          exact .ignored (fun _ _ => .inr ⟨hmany.1, .inr hmany.2⟩) (BundleEntries.agree_touch _ _)
        next hmany =>
          simp only [Bool.and_eq_true, Bool.not_eq_true', not_and] at hmany
          split at h
          next hbound =>
            cases h
            refine .inserted hget (not_not.mp hhash) ?_ hbound ?_
            · rintro ⟨hc, hne | htoo⟩
              · exact hr hc hne
              · exact hmany hc htoo
            · intro b
              rw [BundleEntries.at_insert, BundleEntries.at_touch]
          next => cases h

/-- Only what `operator[]` finds in the aggregation matters. -/
theorem addFileToBundle_replay {m m' : LayoutManifest} {entries entries' e : BundleEntries}
    {addedBundles : Std.TreeSet UInt32} {bundleHash : UInt32} {file : FileInfo}
    {type : AssetType} (he : entries.Agree e)
    (h : m.addFileToBundle entries addedBundles bundleHash file type = .ok (m', entries')) :
    ∃ e', m.addFileToBundle e addedBundles bundleHash file type = .ok (m', e') ∧
      entries'.Agree e' := by
  unfold addFileToBundle at h ⊢
  rw [← he bundleHash]
  split at h
  next =>
    cases h
    exact ⟨e, rfl, he⟩
  next info =>
    split at h
    next hhash =>
      cases h
      rw [if_pos hhash]
      exact ⟨e, rfl, he⟩
    next hhash =>
      rw [if_neg hhash]
      dsimp only at h ⊢
      split at h
      next hr =>
        cases h
        rw [if_pos hr]
        exact ⟨_, rfl, he.touch _⟩
      next hr =>
        rw [if_neg hr]
        split at h
        next hmany =>
          cases h
          rw [if_pos hmany]
          exact ⟨_, rfl, he.touch _⟩
        next hmany =>
          rw [if_neg hmany]
          split at h
          next hbound =>
            cases h
            rw [if_pos hbound]
            exact ⟨_, rfl, (he.touch _).insert _ _⟩
          next => cases h

theorem addDeferred_replay {m m' : LayoutManifest} {entries entries' e : BundleEntries}
    {addedBundles : Std.TreeSet UInt32} {bundleHash : UInt32}
    {deferred : List DeferredBundleFileAdd} (he : entries.Agree e)
    (h : addDeferred addedBundles bundleHash deferred m entries = .ok (m', entries')) :
    ∃ e', addDeferred addedBundles bundleHash deferred m e = .ok (m', e') ∧
      entries'.Agree e' := by
  induction deferred generalizing m entries e with
  | nil =>
      cases h
      exact ⟨e, rfl, he⟩
  | cons add deferred ih =>
      obtain ⟨⟨m₁, e₁⟩, hadd, h⟩ := bind_eq_ok h
      obtain ⟨e₂, hadd', he'⟩ := addFileToBundle_replay he hadd
      rw [addDeferred, hadd']
      exact ih he' h

theorem mergeBundles_replay {loader : Loader} {bundles : List (UInt32 × List ModResource)}
    {m m' : LayoutManifest} {entries entries' e : BundleEntries} (he : entries.Agree e)
    (h : mergeBundles loader bundles m entries = .ok (m', entries')) :
    ∃ e', mergeBundles loader bundles m e = .ok (m', e') ∧ entries'.Agree e' := by
  induction bundles generalizing m entries e with
  | nil =>
      cases h
      exact ⟨e, rfl, he⟩
  | cons bundle bundles ih =>
      obtain ⟨bundleHash, resources⟩ := bundle
      obtain ⟨⟨deferred, m₁⟩, hfiles, h⟩ := bind_eq_ok h
      obtain ⟨⟨m₂, e₂⟩, hadd, h⟩ := bind_eq_ok h
      obtain ⟨e₂', hadd', he'⟩ := addDeferred_replay he hadd
      rw [mergeBundles, hfiles]
      show ∃ e', (addDeferred loader.addedBundles bundleHash deferred m₁ e >>= _) = _ ∧ _
      rw [hadd']
      exact ih he' h

theorem loadBundles_replay {data : Memory} {n i : Nat} {m : LayoutManifest}
    {entries e : BundleEntries} (he : entries.Agree e) :
    (loadBundles data n i m entries).1 = (loadBundles data n i m e).1 ∧
      BundleEntries.Agree (loadBundles data n i m entries).2 (loadBundles data n i m e).2 := by
  induction n generalizing i m entries e with
  | zero => exact ⟨rfl, he⟩
  | succ n ih =>
      rw [loadBundles, loadBundles, he]
      exact ih (he.touch _)

theorem load_replay {data : Memory} {m : LayoutManifest} {entries entries' e : BundleEntries}
    (he : entries.Agree e) (h : load data entries = .ok (m, entries')) :
    ∃ e', load data e = .ok (m, e') ∧ entries'.Agree e' := by
  simp only [load, bind, Except.bind] at h ⊢
  split at h
  next => cases h
  next =>
    split at h
    next => cases h
    next =>
      obtain ⟨hm, hag⟩ := @loadBundles_replay data _ _ _ _ _ he
      rw [← hm]
      split at h
      next => cases h
      next =>
        split at h
        next => cases h
        next hc =>
          cases h
          exact ⟨_, rfl, hag⟩

/-! ## What stays in place -/

/-- The same bundles, with the same hashes. -/
def SameBundles (m m' : LayoutManifest) : Prop :=
  ∀ b : UInt32, (m.bundleInfo[b]?).map (·.hash) = (m'.bundleInfo[b]?).map (·.hash)

theorem SameBundles.refl (m : LayoutManifest) : SameBundles m m := fun _ => rfl

theorem SameBundles.trans {m₁ m₂ m₃ : LayoutManifest} (h₁ : SameBundles m₁ m₂)
    (h₂ : SameBundles m₂ m₃) : SameBundles m₁ m₃ := fun b => (h₁ b).trans (h₂ b)

/-- A change of one bundle's files. -/
theorem sameBundles_insert {m : LayoutManifest} {b : UInt32} {info : BundleInfo}
    (h : m.bundleInfo[b]? = some info) (files : List FileInfo) :
    SameBundles m { m with bundleInfo := m.bundleInfo.insert b { info with files } } := by
  intro b'
  dsimp only
  rw [getElem?_insert_eq]
  split
  next hb =>
    rw [hb, h]
    rfl
  next => rfl

theorem setFileInfo_ok {m m' : LayoutManifest} {b : UInt32} {index : Nat} {file : FileInfo}
    (h : m.setFileInfo b index file = .ok m') :
    (m.bundleInfo[b]? = none ∧ m' = m) ∨
      ∃ info, m.bundleInfo[b]? = some info ∧ index < info.files.length ∧
        m' = { m with
          bundleInfo := m.bundleInfo.insert b { info with files := info.files.set index file } } := by
  unfold setFileInfo at h
  split at h
  next hget =>
    cases h
    exact .inl ⟨hget, rfl⟩
  next info hget =>
    split at h
    next hlt =>
      cases h
      exact .inr ⟨info, hget, hlt, rfl⟩
    next => cases h

theorem setFileInfo_sameBundles {m m' : LayoutManifest} {b : UInt32} {index : Nat}
    {file : FileInfo} (h : m.setFileInfo b index file = .ok m') : SameBundles m m' := by
  obtain ⟨-, rfl⟩ | ⟨info, hget, -, rfl⟩ := setFileInfo_ok h
  · exact .refl _
  · exact sameBundles_insert hget _

section Modify

variable {P : FileInfo → Prop} {R : LayoutManifest → LayoutManifest → Prop} (refl : ∀ m, R m m)
  (trans : ∀ {m₁ m₂ m₃}, R m₁ m₂ → R m₂ m₃ → R m₁ m₃)
  (set : ∀ {m m' : LayoutManifest} {b index file}, P file →
    m.setFileInfo b index file = .ok m' → R m m')

include refl trans set

/-- The loops that modify files do nothing but set them. -/
theorem modifyInBundles_rule {r : ModResource} {file : FileInfo} (hfile : P file)
    {offsets : List (UInt32 × UInt32)} {modified modified' : Std.TreeSet UInt32}
    {m m' : LayoutManifest}
    (h : modifyInBundles r file offsets modified m = .ok (modified', m')) : R m m' := by
  induction offsets generalizing modified m with
  | nil =>
      cases h
      exact refl _
  | cons offset offsets ih =>
      rw [modifyInBundles] at h
      split at h
      next => exact ih h
      next =>
        dsimp only at h
        split at h
        next => exact ih h
        next =>
          obtain ⟨m₁, hset, h⟩ := bind_eq_ok h
          exact trans (set hfile hset) (ih h)

theorem modifyFiles_rule {vanilla : VanillaTables} {rs : List ModResource}
    (hrs : ∀ r ∈ rs, ∀ type, r.handlerHash = 0 ∧ r.resourceIndex ≠ -1 →
      r.type.assetType = some type → P (r.bundleFile type))
    {modified : Std.TreeSet UInt32} {m m' : LayoutManifest}
    (h : modifyFiles vanilla rs modified m = .ok m') : R m m' := by
  induction rs generalizing modified m with
  | nil =>
      cases h
      exact refl _
  | cons r rs ih =>
      have ih := @ih fun r' hr' => hrs r' (List.mem_cons_of_mem r hr')
      rw [modifyFiles] at h
      split at h
      next => exact ih h
      next hdata =>
        have hdata := not_or.mp hdata
        split at h
        next => exact ih h
        next type htype =>
          split at h
          next => exact ih h
          next =>
            obtain ⟨⟨modified', m₁⟩, hmod, h⟩ := bind_eq_ok h
            have hfile := hrs r List.mem_cons_self type ⟨not_not.mp hdata.2, hdata.1⟩ htype
            exact trans (modifyInBundles_rule refl trans set hfile hmod) (ih h)

end Modify

theorem modifyFiles_sameBundles {vanilla : VanillaTables} {rs : List ModResource}
    {modified : Std.TreeSet UInt32} {m m' : LayoutManifest}
    (h : modifyFiles vanilla rs modified m = .ok m') : SameBundles m m' :=
  modifyFiles_rule (P := fun _ => True) .refl .trans (fun _ => setFileInfo_sameBundles)
    (fun _ _ _ _ _ => trivial) h

/-! ## Additions -/

/-- The resource is a file more for the bundle: it is not in the vanilla bundle, or
has no data of its own and is there to bring a vanilla asset along. -/
def Adds (loader : Loader) (b : UInt32) (r : ModResource) : Prop :=
  ∃ type, r.type.assetType = some type ∧
    if r.handlerHash = 0 ∧ r.resourceIndex ≠ -1 then
      loader.vanilla.position type r.name b = none
    else
      ∃ file, unchangedFile loader r type = .ok (some file)

theorem unchangedFile_none {loader : Loader} {r : ModResource} {type : AssetType}
    (h : unchangedFile loader r type = .ok none) :
    type = .chunk ∧ loader.vanilla.getVanillaChunkEntry r.name = none := by
  cases type with
  | ebx =>
      simp only [unchangedFile] at h
      split at h <;> cases h
  | res =>
      simp only [unchangedFile] at h
      split at h <;> cases h
  | chunk =>
      simp only [unchangedFile] at h
      simpa using h

/-- Everything that the loop over a bundle's resources can do with one of them. -/
inductive FileMerged (loader : Loader) (b : UInt32) (r : ModResource)
    (deferred : List DeferredBundleFileAdd) (m : LayoutManifest) :
    List DeferredBundleFileAdd → LayoutManifest → Prop
  | ignored (noAdd : ¬ Adds loader b r)
      (why : r.type.assetType = none ∨
        ¬ (r.handlerHash = 0 ∧ r.resourceIndex ≠ -1) ∧ r.type.assetType = some .chunk ∧
          loader.vanilla.getVanillaChunkEntry r.name = none) :
      FileMerged loader b r deferred m deferred m
  | modified {type : AssetType} {index : UInt32} {m' : LayoutManifest}
      (htype : r.type.assetType = some type)
      (data : r.handlerHash = 0 ∧ r.resourceIndex ≠ -1)
      (position : loader.vanilla.position type r.name b = some index)
      (set : m.setFileInfo b index.toNat (r.bundleFile type) = .ok m') :
      FileMerged loader b r deferred m deferred m'
  | added {type : AssetType} (htype : r.type.assetType = some type)
      (data : r.handlerHash = 0 ∧ r.resourceIndex ≠ -1)
      (position : loader.vanilla.position type r.name b = none) :
      FileMerged loader b r deferred m (deferred ++ [⟨type, r.bundleFile type⟩]) m
  | unchanged {type : AssetType} {file : FileInfo} (htype : r.type.assetType = some type)
      (noData : ¬ (r.handlerHash = 0 ∧ r.resourceIndex ≠ -1))
      (hfile : unchangedFile loader r type = .ok (some file)) :
      FileMerged loader b r deferred m (deferred ++ [⟨type, file⟩]) m

theorem addFile_ok {loader : Loader} {b : UInt32} {r : ModResource}
    {deferred deferred' : List DeferredBundleFileAdd} {m m' : LayoutManifest}
    (h : addFile loader b r deferred m = .ok (deferred', m')) :
    FileMerged loader b r deferred m deferred' m' := by
  unfold addFile at h
  split at h
  next htype =>
    cases h
    refine .ignored ?_ (.inl htype)
    rintro ⟨type, ht, -⟩
    rw [htype] at ht
    cases ht
  next type htype =>
    split at h
    next hdata =>
      split at h
      next hpos =>
        cases h
        exact .added htype hdata hpos
      next index hpos =>
        obtain ⟨m₁, hset, h⟩ := bind_eq_ok h
        cases h
        exact .modified htype hdata hpos hset
    next hdata =>
      obtain ⟨file, hfile, h⟩ := bind_eq_ok h
      cases file with
      | some file =>
          cases h
          exact .unchanged htype hdata hfile
      | none =>
          cases h
          obtain ⟨rfl, hnone⟩ := unchangedFile_none hfile
          refine .ignored ?_ (.inr ⟨hdata, htype, hnone⟩)
          rintro ⟨type, ht, hadd⟩
          rw [htype] at ht
          cases ht
          rw [if_neg hdata] at hadd
          obtain ⟨file, hfile'⟩ := hadd
          rw [hfile] at hfile'
          cases hfile'

theorem addFiles_sameBundles {loader : Loader} {b : UInt32} {rs : List ModResource}
    {deferred deferred' : List DeferredBundleFileAdd} {m m' : LayoutManifest}
    (h : addFiles loader b rs deferred m = .ok (deferred', m')) : SameBundles m m' := by
  induction rs generalizing deferred m with
  | nil =>
      cases h
      exact .refl _
  | cons r rs ih =>
      obtain ⟨⟨deferred₁, m₁⟩, hadd, h⟩ := bind_eq_ok h
      refine SameBundles.trans ?_ (ih h)
      cases addFile_ok hadd with
      | ignored => exact .refl _
      | modified _ _ _ hset => exact setFileInfo_sameBundles hset
      | added => exact .refl _
      | unchanged => exact .refl _

/-- Resources that add nothing leave nothing to be added. -/
theorem addFiles_noAdds {loader : Loader} {b : UInt32} {rs : List ModResource}
    {deferred deferred' : List DeferredBundleFileAdd} {m m' : LayoutManifest}
    (hno : ∀ r ∈ rs, ¬ Adds loader b r)
    (h : addFiles loader b rs deferred m = .ok (deferred', m')) : deferred' = deferred := by
  induction rs generalizing deferred m with
  | nil =>
      cases h
      rfl
  | cons r rs ih =>
      obtain ⟨⟨deferred₁, m₁⟩, hadd, h⟩ := bind_eq_ok h
      have hr := hno r List.mem_cons_self
      have ih := ih (fun r' hr' => hno r' (List.mem_cons_of_mem r hr')) h
      cases addFile_ok hadd with
      | ignored => exact ih
      | modified => exact ih
      | added htype data position => exact absurd ⟨_, htype, by rwa [if_pos data]⟩ hr
      | unchanged htype noData hfile =>
          exact absurd ⟨_, htype, by rw [if_neg noData]; exact ⟨_, hfile⟩⟩ hr

/-! ## The bundles of the layout -/

/-- The hashes of the vanilla layout. -/
def hashes (data : Memory) : List UInt32 :=
  (List.range' 0 (data.u32 4).toNat).map fun i => (NativeLayoutManifest.bundleInfoAt data i).hash

/-- The hashes of the bundles that mods bring. -/
def newHashes (rs : List ModResource) : List UInt32 :=
  (rs.filter (·.type = .bundle)).map fun r => hashQuickLower r.name

theorem loadBundles_get (data : Memory) (n i : Nat) (m : LayoutManifest) (entries : BundleEntries)
    (b : UInt32) :
    (loadBundles data n i m entries).1.bundleInfo[b]?
      = if b ∈ (List.range' i n).map fun i => (NativeLayoutManifest.bundleInfoAt data i).hash then
          some { hash := b, files := (entries.at b).files }
        else m.bundleInfo[b]? := by
  induction n generalizing i m entries with
  | zero => simp [loadBundles]
  | succ n ih =>
      rw [loadBundles, ih, BundleEntries.at_touch, getElem?_insert_eq, List.range'_succ,
        List.map_cons]
      by_cases hb : b = (NativeLayoutManifest.bundleInfoAt data i).hash
      · rw [if_pos hb, if_pos (List.mem_cons.mpr (.inl hb)), ← hb, ite_self]
      · simp only [List.mem_cons, hb, false_or, if_false]

theorem loadBundles_agree (data : Memory) (n i : Nat) (m : LayoutManifest)
    (entries : BundleEntries) : BundleEntries.Agree (loadBundles data n i m entries).2 entries := by
  induction n generalizing i m entries with
  | zero => exact .refl _
  | succ n ih =>
      rw [loadBundles]
      exact (ih _ _ _).trans (BundleEntries.agree_touch _ _)

theorem loadChunks_bundleInfo {data : Memory} {n i : Nat} {m m' : LayoutManifest}
    (h : loadChunks data n i m = .ok m') : m'.bundleInfo = m.bundleInfo := by
  induction n generalizing i m with
  | zero =>
      cases h
      rfl
  | succ n ih =>
      rw [loadChunks] at h
      split at h
      next => cases h
      next =>
        have hi := ih h
        exact hi

/-- A loaded layout: the files of a bundle are those of the aggregation. -/
theorem load_get {data : Memory} {m : LayoutManifest} {entries entries' : BundleEntries}
    (h : load data entries = .ok (m, entries')) (b : UInt32) :
    m.bundleInfo[b]? = if b ∈ hashes data then
      some { hash := b, files := (entries.at b).files } else none := by
  obtain ⟨fileInfo, -, hc⟩ := load_ok h
  rw [loadChunks_bundleInfo hc, loadBundles_get]
  simp [hashes]

theorem load_agree {data : Memory} {m : LayoutManifest} {entries entries' : BundleEntries}
    (h : load data entries = .ok (m, entries')) : entries'.Agree entries := by
  obtain ⟨fileInfo, rfl, -⟩ := load_ok h
  exact loadBundles_agree _ _ _ _ _

theorem addBundle_ok {m m' : LayoutManifest} {hash : UInt32} (h : m.addBundle hash = .ok m') :
    (m.bundleInfo.contains hash = true ∧ m' = m) ∨
      (m.bundleInfo.contains hash = false ∧ ∃ header,
        m' = { m with bundleInfo := m.bundleInfo.insert hash { hash, files := [header] } }) := by
  unfold addBundle at h
  split at h
  next hc =>
    cases h
    exact .inl ⟨hc, rfl⟩
  next hc =>
    split at h
    next =>
      cases h
      exact .inr ⟨Bool.not_eq_true _ ▸ hc, _, rfl⟩
    next => cases h

/-- The bundles that are there stay as they are. -/
theorem addChunksAndBundles_some {rs : List ModResource} {modifiedChunks : Std.TreeSet ByteString}
    {m m' : LayoutManifest} (h : addChunksAndBundles rs modifiedChunks m = .ok m') {b : UInt32}
    {info : BundleInfo} (hb : m.bundleInfo[b]? = some info) : m'.bundleInfo[b]? = some info := by
  induction rs generalizing modifiedChunks m with
  | nil =>
      cases h
      exact hb
  | cons r rs ih =>
      rw [addChunksAndBundles] at h
      split at h
      next =>
        split at h
        next => exact ih h hb
        next =>
          split at h
          next => exact ih h hb
          next => exact ih h hb
      next =>
        split at h
        next =>
          obtain ⟨m₁, hadd, hrest⟩ := bind_eq_ok h
          refine ih hrest ?_
          obtain ⟨-, rfl⟩ | ⟨hc, header, rfl⟩ := addBundle_ok hadd
          · exact hb
          · dsimp only
            rw [getElem?_insert_eq, if_neg, hb]
            rintro rfl
            rw [Std.TreeMap.contains_eq_isSome_getElem?, hb] at hc
            cases hc
        next => exact ih h hb

theorem addChunksAndBundles_none {rs : List ModResource} {modifiedChunks : Std.TreeSet ByteString}
    {m m' : LayoutManifest} (h : addChunksAndBundles rs modifiedChunks m = .ok m') {b : UInt32}
    (hb : m.bundleInfo[b]? = none) :
    if b ∈ newHashes rs then ∃ header, m'.bundleInfo[b]? = some { hash := b, files := [header] }
    else m'.bundleInfo[b]? = none := by
  induction rs generalizing modifiedChunks m with
  | nil =>
      cases h
      simpa [newHashes] using hb
  | cons r rs ih =>
      rw [addChunksAndBundles] at h
      have hskip : r.type ≠ .bundle → newHashes (r :: rs) = newHashes rs := by
        intro hne
        simp [newHashes, hne]
      split at h
      next ht =>
        rw [hskip (by simp [ht])]
        split at h
        next => exact ih h hb
        next =>
          split at h
          next => exact ih h hb
          next => exact ih h hb
      next =>
        split at h
        next ht =>
          obtain ⟨m₁, hadd, hrest⟩ := bind_eq_ok h
          have hnew : newHashes (r :: rs) = hashQuickLower r.name :: newHashes rs := by
            simp [newHashes, ht]
          rw [hnew]
          obtain ⟨hc, rfl⟩ | ⟨hc, header, rfl⟩ := addBundle_ok hadd
          · have hne : b ≠ hashQuickLower r.name := by
              rintro rfl
              rw [Std.TreeMap.contains_eq_isSome_getElem?, hb] at hc
              cases hc
            simpa [hne] using ih hrest hb
          · by_cases hbr : b = hashQuickLower r.name
            · rw [if_pos (by simp [hbr])]
              refine ⟨header, addChunksAndBundles_some hrest ?_⟩
              dsimp only
              rw [getElem?_insert_eq, if_pos hbr, hbr]
            · have := ih hrest (by dsimp only; rw [getElem?_insert_eq, if_neg hbr, hb])
              simpa [hbr] using this
        next ht =>
          rw [hskip ht]
          exact ih h hb

/-! ## One bundle

What the pass does to a bundle depends on that bundle alone, and on nothing the
pass has done to others. -/

theorem setFileInfo_frame {m m' : LayoutManifest} {b a : UInt32} {index : Nat} {file : FileInfo}
    (h : m.setFileInfo b index file = .ok m') (ha : a ≠ b) :
    m'.bundleInfo[a]? = m.bundleInfo[a]? := by
  obtain ⟨-, rfl⟩ | ⟨info, -, -, rfl⟩ := setFileInfo_ok h
  · rfl
  · dsimp only
    rw [getElem?_insert_eq, if_neg ha]

theorem addFiles_frame {loader : Loader} {b a : UInt32} {rs : List ModResource}
    {deferred deferred' : List DeferredBundleFileAdd} {m m' : LayoutManifest}
    (h : addFiles loader b rs deferred m = .ok (deferred', m')) (ha : a ≠ b) :
    m'.bundleInfo[a]? = m.bundleInfo[a]? := by
  induction rs generalizing deferred m with
  | nil =>
      cases h
      rfl
  | cons r rs ih =>
      obtain ⟨⟨deferred₁, m₁⟩, hadd, h⟩ := bind_eq_ok h
      rw [ih h]
      cases addFile_ok hadd with
      | modified _ _ _ hset => exact setFileInfo_frame hset ha
      | ignored | added | unchanged => rfl

theorem addFileToBundle_frame {m m' : LayoutManifest} {entries entries' : BundleEntries}
    {addedBundles : Std.TreeSet UInt32} {b a : UInt32} {file : FileInfo} {type : AssetType}
    (h : m.addFileToBundle entries addedBundles b file type = .ok (m', entries')) (ha : a ≠ b) :
    m'.bundleInfo[a]? = m.bundleInfo[a]? ∧ entries'.at a = entries.at a := by
  cases addFileToBundle_ok h with
  | ignored _ agree => exact ⟨rfl, agree a⟩
  | inserted _ _ _ _ at_eq =>
      refine ⟨?_, ?_⟩
      · dsimp only
        rw [getElem?_insert_eq, if_neg ha]
      · rw [at_eq, if_neg ha]

theorem addDeferred_frame {m m' : LayoutManifest} {entries entries' : BundleEntries}
    {addedBundles : Std.TreeSet UInt32} {b a : UInt32} {deferred : List DeferredBundleFileAdd}
    (h : addDeferred addedBundles b deferred m entries = .ok (m', entries')) (ha : a ≠ b) :
    m'.bundleInfo[a]? = m.bundleInfo[a]? ∧ entries'.at a = entries.at a := by
  induction deferred generalizing m entries with
  | nil =>
      cases h
      exact ⟨rfl, rfl⟩
  | cons add deferred ih =>
      obtain ⟨⟨m₁, e₁⟩, hadd, h⟩ := bind_eq_ok h
      have h₁ := addFileToBundle_frame hadd ha
      have h₂ := ih h
      exact ⟨h₂.1.trans h₁.1, h₂.2.trans h₁.2⟩

theorem mergeBundles_frame {loader : Loader} {bundles : List (UInt32 × List ModResource)}
    {m m' : LayoutManifest} {entries entries' : BundleEntries} {a : UInt32}
    (h : mergeBundles loader bundles m entries = .ok (m', entries'))
    (ha : a ∉ bundles.map Prod.fst) :
    m'.bundleInfo[a]? = m.bundleInfo[a]? ∧ entries'.at a = entries.at a := by
  induction bundles generalizing m entries with
  | nil =>
      cases h
      exact ⟨rfl, rfl⟩
  | cons bundle bundles ih =>
      obtain ⟨b, rs⟩ := bundle
      rw [List.map_cons, List.mem_cons, not_or] at ha
      obtain ⟨⟨deferred, m₁⟩, hfiles, h⟩ := bind_eq_ok h
      obtain ⟨⟨m₂, e₂⟩, hadd, h⟩ := bind_eq_ok h
      have h₁ := addFiles_frame hfiles ha.1
      have h₂ := addDeferred_frame hadd ha.1
      have h₃ := ih h ha.2
      exact ⟨h₃.1.trans (h₂.1.trans h₁), h₃.2.trans h₂.2⟩

/-- The pass over all bundles, at one of them. -/
structure MergedAt (loader : Loader) (b : UInt32) (rs : List ModResource) (m : LayoutManifest)
    (entries : BundleEntries) (m' : LayoutManifest) (entries' : BundleEntries) : Prop where
  run : ∃ m₁ e₁ deferred m₂ m₃ e₃, m₁.bundleInfo[b]? = m.bundleInfo[b]? ∧
    BundleEntries.at e₁ b = entries.at b ∧
    addFiles loader b rs [] m₁ = .ok (deferred, m₂) ∧
    addDeferred loader.addedBundles b deferred m₂ e₁ = .ok (m₃, e₃) ∧
    m'.bundleInfo[b]? = m₃.bundleInfo[b]? ∧ entries'.at b = BundleEntries.at e₃ b

theorem mergeBundles_at {loader : Loader} {bundles : List (UInt32 × List ModResource)}
    {m m' : LayoutManifest} {entries entries' : BundleEntries} {b : UInt32}
    {rs : List ModResource} (hnodup : (bundles.map Prod.fst).Nodup) (hmem : (b, rs) ∈ bundles)
    (h : mergeBundles loader bundles m entries = .ok (m', entries')) :
    MergedAt loader b rs m entries m' entries' := by
  induction bundles generalizing m entries with
  | nil => cases hmem
  | cons bundle bundles ih =>
      obtain ⟨b', rs'⟩ := bundle
      rw [List.map_cons, List.nodup_cons] at hnodup
      obtain ⟨⟨deferred, m₁⟩, hfiles, h⟩ := bind_eq_ok h
      obtain ⟨⟨m₂, e₂⟩, hadd, hrest⟩ := bind_eq_ok h
      rcases List.mem_cons.mp hmem with heq | hlater
      · cases heq
        obtain ⟨hget, hat⟩ := mergeBundles_frame hrest hnodup.1
        exact ⟨m, entries, deferred, m₁, m₂, e₂, rfl, rfl, hfiles, hadd, hget, hat⟩
      · have hne : b ≠ b' := by
          rintro rfl
          exact hnodup.1 (List.mem_map.mpr ⟨_, hlater, rfl⟩)
        obtain ⟨m₃, e₃, deferred', m₄, m₅, e₅, hget, hat, hfiles', hadd', hget', hat'⟩ :=
          (ih hnodup.2 hlater hrest).run
        have h₁ := addFiles_frame hfiles hne
        have h₂ := addDeferred_frame hadd hne
        exact ⟨m₃, e₃, deferred', m₄, m₅, e₅, hget.trans (h₂.1.trans h₁), hat.trans h₂.2, hfiles',
          hadd', hget', hat'⟩

/-- A bundle without resources is merged too, with none. -/
theorem mergeBundles_resourcesOf {loader : Loader} {m m' : LayoutManifest}
    {entries entries' : BundleEntries} (b : UInt32)
    (h : mergeBundles loader loader.mods.bundleResources.toList m entries = .ok (m', entries')) :
    MergedAt loader b (loader.mods.resourcesOf b) m entries m' entries' := by
  cases hget : loader.mods.bundleResources[b]? with
  | some rs =>
      have hrs : loader.mods.resourcesOf b = rs := by
        rw [FinalizedMods.resourcesOf, Std.TreeMap.getD_eq_getD_getElem?, hget]
        rfl
      rw [hrs]
      exact mergeBundles_at (keys_nodup _)
        (Std.TreeMap.mem_toList_iff_getElem?_eq_some.mpr hget) h
  | none =>
      have hrs : loader.mods.resourcesOf b = [] := by
        rw [FinalizedMods.resourcesOf, Std.TreeMap.getD_eq_getD_getElem?, hget]
        rfl
      have hnot : b ∉ loader.mods.bundleResources.toList.map Prod.fst := by
        intro hmem
        obtain ⟨⟨b', rs⟩, hp, rfl⟩ := List.mem_map.mp hmem
        rw [Std.TreeMap.mem_toList_iff_getElem?_eq_some.mp hp] at hget
        cases hget
      obtain ⟨hm, he⟩ := mergeBundles_frame h hnot
      rw [hrs]
      exact ⟨m, entries, [], m, m, entries, rfl, rfl, rfl, rfl, hm, he⟩

/-- Files put at the ends of their sections, one after the other. -/
inductive Inserted : List FileInfo → BundleEntry → List DeferredBundleFileAdd →
    List FileInfo → BundleEntry → Prop
  | nil {files : List FileInfo} {entry : BundleEntry} : Inserted files entry [] files entry
  | cons {files files' : List FileInfo} {entry entry' : BundleEntry}
      {add : DeferredBundleFileAdd} {adds : List DeferredBundleFileAdd}
      (bound : entry.sectionEnd add.type ≤ files.length)
      (rest : Inserted (files.insertIdx (entry.sectionEnd add.type) add.file)
        (entry.count add.type) adds files' entry') :
      Inserted files entry (add :: adds) files' entry'

theorem addDeferred_refused {addedBundles : Std.TreeSet UInt32} {b : UInt32}
    {deferred : List DeferredBundleFileAdd} {m m' : LayoutManifest}
    {entries entries' : BundleEntries} (hr : Refuses addedBundles b (entries.at b))
    (h : addDeferred addedBundles b deferred m entries = .ok (m', entries')) :
    m' = m ∧ entries'.Agree entries := by
  induction deferred generalizing entries with
  | nil =>
      cases h
      exact ⟨rfl, .refl _⟩
  | cons add deferred ih =>
      obtain ⟨⟨m₁, e₁⟩, hadd, h⟩ := bind_eq_ok h
      cases addFileToBundle_ok hadd with
      | ignored _ agree =>
          obtain ⟨rfl, hag⟩ := ih (by rwa [agree b]) h
          exact ⟨rfl, hag.trans agree⟩
      | inserted _ _ accepts => exact absurd hr accepts

theorem addDeferred_absent {addedBundles : Std.TreeSet UInt32} {b : UInt32}
    {deferred : List DeferredBundleFileAdd} {m m' : LayoutManifest}
    {entries entries' : BundleEntries} (hb : m.bundleInfo[b]? = none)
    (h : addDeferred addedBundles b deferred m entries = .ok (m', entries')) :
    m' = m ∧ entries'.Agree entries := by
  induction deferred generalizing entries with
  | nil =>
      cases h
      exact ⟨rfl, .refl _⟩
  | cons add deferred ih =>
      obtain ⟨⟨m₁, e₁⟩, hadd, h⟩ := bind_eq_ok h
      cases addFileToBundle_ok hadd with
      | ignored _ agree =>
          obtain ⟨rfl, hag⟩ := ih h
          exact ⟨rfl, hag.trans agree⟩
      | inserted get =>
          rw [hb] at get
          cases get

/-- The additions to a bundle that is there: as many of them as its sections have
room for. -/
theorem addDeferred_at {addedBundles : Std.TreeSet UInt32} {b : UInt32}
    {deferred : List DeferredBundleFileAdd} {m m' : LayoutManifest}
    {entries entries' : BundleEntries} {files : List FileInfo}
    (hb : m.bundleInfo[b]? = some { hash := b, files })
    (h : addDeferred addedBundles b deferred m entries = .ok (m', entries')) :
    ∃ k ≤ deferred.length, ∃ files', m'.bundleInfo[b]? = some { hash := b, files := files' } ∧
      Inserted files (entries.at b) (deferred.take k) files' (entries'.at b) ∧
      (k < deferred.length → Refuses addedBundles b (entries'.at b)) := by
  induction deferred generalizing m entries files with
  | nil =>
      cases h
      exact ⟨0, Nat.le_refl _, files, hb, .nil, by simp⟩
  | cons add deferred ih =>
      obtain ⟨⟨m₁, e₁⟩, hadd, h⟩ := bind_eq_ok h
      cases addFileToBundle_ok hadd with
      | ignored why agree =>
          have hr := (why _ hb).resolve_left (by simp)
          rw [← agree b] at hr
          obtain ⟨rfl, hag⟩ := addDeferred_refused hr h
          refine ⟨0, Nat.zero_le _, files, hb, ?_, ?_⟩
          · rw [hag b, agree b]
            exact .nil
          · intro _
            rwa [hag b]
      | inserted get _ _ bound at_eq =>
          rw [hb] at get
          cases get
          obtain ⟨k, hk, files', hget, hins, hfull⟩ := ih (by
            dsimp only
            rw [getElem?_insert_eq, if_pos rfl]) h
          refine ⟨k + 1, Nat.succ_le_succ hk, files', hget, ?_, ?_⟩
          · rw [at_eq, if_pos rfl] at hins
            exact .cons bound hins
          · intro hlt
            exact hfull (Nat.lt_of_succ_lt_succ hlt)

end LayoutManifest

end Kyber.ModLoader
