import Kyber.Proofs.Positional

/-!
# The sections of a bundle's files

Files are added to bundles by one call each, in any order and of any type. The place of a file
is computed from the counts of its bundle, and these are counted up by the same calls. As long
as the counts are the lengths of the sections, a file goes to the end of its section, and they
are so again; so they are after any calls (`addAll_sectioned`).

The counts have 32 bits. A bundle of the game stops taking files long before they are used up,
but there is no such check for the bundles that mods add.
-/

namespace Kyber.ModLoader.LayoutManifest

open Kyber.Lib

/-- A call of `AddFileToBundle`. -/
structure FileCall where
  bundleHash : UInt32
  add : DeferredBundleFileAdd
  deriving DecidableEq

def addAll (addedBundles : Std.TreeSet UInt32) : List FileCall → LayoutManifest → BundleEntries →
    Except Fault (LayoutManifest × BundleEntries)
  | [], m, entries => .ok (m, entries)
  | call :: calls, m, entries => do
      let (m, entries) ←
        m.addFileToBundle entries addedBundles call.bundleHash call.add.file call.add.type
      addAll addedBundles calls m entries

/-- The files that the calls have for a bundle, in their order. -/
def filesFor (b : UInt32) (calls : List FileCall) : List DeferredBundleFileAdd :=
  (calls.filter fun call => call.bundleHash = b).map (·.add)

/-- Those that the bundle takes: all up to the one that is turned away by its checks. -/
def accepted (addedBundles : Std.TreeSet UInt32) (b : UInt32) :
    BundleEntry → List DeferredBundleFileAdd → List DeferredBundleFileAdd
  | _, [] => []
  | entry, add :: adds =>
      if Refuses addedBundles b entry then []
      else add :: accepted addedBundles b (entry.count add.type) adds

/-- The files of a bundle are its manifest and the three sections, as long as the counts say. -/
structure Sectioned (m : LayoutManifest) (entries : BundleEntries) (b : UInt32)
    (header : FileInfo) (sections : AssetType → List FileInfo) : Prop where
  files : m.bundleInfo[b]? = some { hash := b, files := header :: flat AssetType.order sections }
  counts : ∀ type, ((entries.at b).sectionCount type).toNat = (sections type).length

section

variable {addedBundles : Std.TreeSet UInt32} {m m' : LayoutManifest}
  {entries entries' : BundleEntries} {b : UInt32} {header : FileInfo}
  {sections : AssetType → List FileInfo}

theorem filesFor_cons_self (add : DeferredBundleFileAdd) (calls : List FileCall) :
    filesFor b (⟨b, add⟩ :: calls) = add :: filesFor b calls := by
  simp [filesFor]

theorem filesFor_cons_of_ne {call : FileCall} (h : call.bundleHash ≠ b) (calls : List FileCall) :
    filesFor b (call :: calls) = filesFor b calls := by
  simp [filesFor, h]

theorem accepted_of_refuses {entry : BundleEntry} (h : Refuses addedBundles b entry)
    (adds : List DeferredBundleFileAdd) : accepted addedBundles b entry adds = [] := by
  cases adds with
  | nil => rfl
  | cons add adds => rw [accepted, if_pos h]

theorem accepted_of_custom (h : addedBundles.contains b = true) (entry : BundleEntry)
    (adds : List DeferredBundleFileAdd) : accepted addedBundles b entry adds = adds := by
  induction adds generalizing entry with
  | nil => rfl
  | cons add adds ih =>
      have haccepts : ¬ Refuses addedBundles b entry := by
        rintro ⟨hnot, -⟩
        exact absurd (h.symm.trans hnot) (by decide)
      rw [accepted, if_neg haccepts, ih]

/-! ## One call -/

variable (addedBundles) in
/-- A file always has a place in such a bundle. -/
theorem exists_addFileToBundle (h : Sectioned m entries b header sections) (file : FileInfo)
    (type : AssetType) :
    ∃ m' entries', m.addFileToBundle entries addedBundles b file type = .ok (m', entries') := by
  have hbound : (entries.at b).sectionEnd type
      ≤ (header :: flat AssetType.order sections).length := by
    have hsection := start_add_length_le AssetType.nodup_order sections type.mem_order
    rw [sectionEnd_eq h.counts, List.length_cons]
    omega
  rw [addFileToBundle, h.files]
  dsimp only
  rw [if_neg (by simp), if_pos hbound]
  split
  · exact ⟨_, _, rfl⟩
  · split
    · exact ⟨_, _, rfl⟩
    · exact ⟨_, _, rfl⟩

/-- A call for another bundle. -/
theorem Sectioned.frame (h : Sectioned m entries b header sections) {a : UInt32}
    {file : FileInfo} {type : AssetType}
    (hadd : m.addFileToBundle entries addedBundles a file type = .ok (m', entries'))
    (ha : b ≠ a) : Sectioned m' entries' b header sections := by
  obtain ⟨hfiles, hat⟩ := addFileToBundle_frame hadd ha
  refine ⟨hfiles.trans h.files, ?_⟩
  rw [hat]
  exact h.counts

/-- A call for the bundle: the file is turned away, or goes to the end of its section. -/
theorem addFileToBundle_sectioned (h : Sectioned m entries b header sections) {file : FileInfo}
    {type : AssetType}
    (hadd : m.addFileToBundle entries addedBundles b file type = .ok (m', entries'))
    (hfits : ¬ Refuses addedBundles b (entries.at b) → (sections type).length + 1 < 2 ^ 32) :
    (Refuses addedBundles b (entries.at b) ∧ entries'.at b = entries.at b ∧
      Sectioned m' entries' b header sections) ∨
    (¬ Refuses addedBundles b (entries.at b) ∧
      entries'.at b = (entries.at b).count type ∧
      Sectioned m' entries' b header
        (Function.update sections type (sections type ++ [file]))) := by
  cases addFileToBundle_ok hadd with
  | ignored why agree =>
      have hrefuses := (why _ h.files).resolve_left (by simp)
      refine .inl ⟨hrefuses, agree b, h.files, ?_⟩
      rw [agree b]
      exact h.counts
  | @inserted info _ get hash accepts bound at_eq =>
      cases h.files.symm.trans get
      have hcount : entries'.at b = (entries.at b).count type := by
        rw [at_eq, if_pos rfl]
      refine .inr ⟨accepts, hcount, ?_, ?_⟩
      · dsimp only
        rw [getElem?_insert_eq, if_pos rfl, sectionEnd_eq h.counts, List.insertIdx_succ_cons,
          flat_concat AssetType.nodup_order _ type.mem_order]
      · intro type'
        rw [hcount, sectionCount_count]
        by_cases htype : type' = type
        · subst htype
          rw [if_pos rfl, Function.update_self, List.length_append, List.length_singleton,
            UInt32.toNat_add, h.counts]
          exact Nat.mod_eq_of_lt (hfits accepts)
        · rw [if_neg htype, Function.update_of_ne htype, h.counts]

/-- A bundle of the game that takes a file has room for it in its counts. -/
theorem fits_of_accepts (h : Sectioned m entries b header sections)
    (hcustom : addedBundles.contains b = false)
    (haccepts : ¬ Refuses addedBundles b (entries.at b)) (type : AssetType) :
    (sections type).length + 1 < 2 ^ 32 := by
  have hmany : (entries.at b).tooMany = false := by
    refine Bool.eq_false_iff.mpr fun hmany => haccepts ⟨hcustom, .inr hmany⟩
  rw [BundleEntry.tooMany, Bool.or_eq_false_iff, Bool.or_eq_false_iff] at hmany
  obtain ⟨⟨hebx, hres⟩, hchunk⟩ := hmany
  rw [← h.counts]
  simp only [decide_eq_false_iff_not, UInt32.lt_iff_toNat_lt] at hebx hres hchunk
  cases type with
  | ebx =>
      have : ¬ 200000 < (entries.at b).ebxCount.toNat := hebx
      rw [BundleEntry.sectionCount]
      omega
  | res =>
      have : ¬ 2000000 < (entries.at b).resCount.toNat := hres
      rw [BundleEntry.sectionCount]
      omega
  | chunk =>
      have : ¬ 2000000 < (entries.at b).chunkCount.toNat := hchunk
      rw [BundleEntry.sectionCount]
      omega

/-- What is left of the calls then. -/
theorem addFileToBundle_step (h : Sectioned m entries b header sections)
    {add : DeferredBundleFileAdd} {adds : List DeferredBundleFileAdd}
    (hfits : addedBundles.contains b = true →
      ∀ type, (withAdded sections (add :: adds) type).length < 2 ^ 32)
    (hadd : m.addFileToBundle entries addedBundles b add.file add.type = .ok (m', entries')) :
    ∃ sections', Sectioned m' entries' b header sections' ∧
      (addedBundles.contains b = true →
        ∀ type, (withAdded sections' adds type).length < 2 ^ 32) ∧
      withAdded sections (accepted addedBundles b (entries.at b) (add :: adds)) =
        withAdded sections' (accepted addedBundles b (entries'.at b) adds) := by
  have hroom : ¬ Refuses addedBundles b (entries.at b) →
      (sections add.type).length + 1 < 2 ^ 32 := by
    intro haccepts
    cases hcustom : addedBundles.contains b with
    | false => exact fits_of_accepts h hcustom haccepts add.type
    | true =>
        have hall := hfits hcustom add.type
        rw [withAdded_cons, withAdded, Function.update_self, List.length_append,
          List.length_append, List.length_singleton] at hall
        omega
  obtain ⟨hrefuses, hat, hnext⟩ | ⟨haccepts, hat, hnext⟩ :=
    addFileToBundle_sectioned h hadd hroom
  · refine ⟨sections, hnext, fun hcustom => ?_, ?_⟩
    · exact absurd (hcustom.symm.trans hrefuses.1) (by decide)
    · rw [hat, accepted_of_refuses hrefuses, accepted_of_refuses hrefuses]
  · refine ⟨_, hnext, fun hcustom type => ?_, ?_⟩
    · rw [← withAdded_cons]
      exact hfits hcustom type
    · rw [hat, accepted, if_neg haccepts, withAdded_cons]

/-! ## All calls -/

/-- The calls for such a bundle are all carried out. -/
theorem addAll_sectioned {calls : List FileCall} (h : Sectioned m entries b header sections)
    (hfits : addedBundles.contains b = true →
      ∀ type, (withAdded sections (filesFor b calls) type).length < 2 ^ 32)
    (hrun : addAll addedBundles calls m entries = .ok (m', entries')) :
    Sectioned m' entries' b header
      (withAdded sections (accepted addedBundles b (entries.at b) (filesFor b calls))) := by
  induction calls generalizing m entries sections with
  | nil =>
      cases hrun
      rwa [filesFor, List.filter_nil, List.map_nil, accepted, withAdded_nil]
  | cons call calls ih =>
      obtain ⟨⟨m₁, e₁⟩, hadd, hrest⟩ := bind_eq_ok hrun
      obtain ⟨a, add⟩ := call
      by_cases ha : a = b
      · subst ha
        rw [filesFor_cons_self] at hfits ⊢
        obtain ⟨sections₁, hnext, hfits₁, heq⟩ := addFileToBundle_step h hfits hadd
        rw [heq]
        exact ih hnext hfits₁ hrest
      · rw [filesFor_cons_of_ne ha] at hfits ⊢
        have hat : e₁.at b = entries.at b := (addFileToBundle_frame hadd (Ne.symm ha)).2
        rw [← hat]
        exact ih (h.frame hadd (Ne.symm ha)) hfits hrest

/-- Calls for such a bundle alone come to their end. -/
theorem exists_addAll {calls : List FileCall} (h : Sectioned m entries b header sections)
    (hfits : addedBundles.contains b = true →
      ∀ type, (withAdded sections (filesFor b calls) type).length < 2 ^ 32)
    (hcalls : ∀ call ∈ calls, call.bundleHash = b) :
    ∃ m' entries', addAll addedBundles calls m entries = .ok (m', entries') := by
  induction calls generalizing m entries sections with
  | nil => exact ⟨m, entries, rfl⟩
  | cons call calls ih =>
      obtain ⟨a, add⟩ := call
      obtain rfl : a = b := hcalls _ List.mem_cons_self
      rw [filesFor_cons_self] at hfits
      obtain ⟨m₁, e₁, hadd⟩ := exists_addFileToBundle addedBundles h add.file add.type
      obtain ⟨sections₁, hnext, hfits₁, -⟩ := addFileToBundle_step h hfits hadd
      obtain ⟨m₂, e₂, hrest⟩ :=
        ih hnext hfits₁ fun call hcall => hcalls call (List.mem_cons_of_mem _ hcall)
      refine ⟨m₂, e₂, ?_⟩
      rw [addAll, hadd]
      exact hrest

end

/-- The calls keep the sections of a bundle, with the files that it takes at their ends; those
for it are always carried out. For a bundle that mods add, the counts must not be used up. -/
theorem sections_kept (addedBundles : Std.TreeSet UInt32) {m : LayoutManifest}
    {entries : BundleEntries} {b : UInt32} {header : FileInfo}
    {sections : AssetType → List FileInfo} (h : Sectioned m entries b header sections)
    (calls : List FileCall)
    (hfits : addedBundles.contains b = true →
      ∀ type, (withAdded sections (filesFor b calls) type).length < 2 ^ 32) :
    (∀ m' entries', addAll addedBundles calls m entries = .ok (m', entries') →
      Sectioned m' entries' b header
        (withAdded sections (accepted addedBundles b (entries.at b) (filesFor b calls)))) ∧
    ((∀ call ∈ calls, call.bundleHash = b) →
      ∃ m' entries', addAll addedBundles calls m entries = .ok (m', entries')) :=
  ⟨fun _ _ => addAll_sectioned h hfits, exists_addAll h hfits⟩

/-! ## Counts that are used up -/

def emptyFile : FileInfo where
  file := 0
  offset := 0
  size := 0

/-- A bundle that a mod adds, which has a manifest and nothing else. -/
def newBundle : LayoutManifest where
  bundleInfo := ({} : Std.TreeMap UInt32 BundleInfo).insert 1 { hash := 1, files := [emptyFile] }

def addedByMod : Std.TreeSet UInt32 := ({} : Std.TreeSet UInt32).insert 1

def ebxCall : FileCall where
  bundleHash := 1
  add := { type := .ebx, file := emptyFile }

theorem newBundle_sectioned : Sectioned newBundle {} 1 emptyFile fun _ => [] where
  files := by
    rw [newBundle, getElem?_insert_eq, if_pos rfl]
    rfl
  counts type := by cases type <;> rfl

theorem contains_addedByMod : addedByMod.contains 1 = true := by
  simp [addedByMod]

theorem filesFor_replicate (n : Nat) :
    filesFor 1 (List.replicate n ebxCall) = List.replicate n ebxCall.add := by
  rw [filesFor, List.filter_replicate, if_pos (by decide), List.map_replicate]

theorem withAdded_replicate (n : Nat) (type : AssetType) :
    (withAdded (fun _ => []) (List.replicate n ebxCall.add) type).length =
      if type = .ebx then n else 0 := by
  rw [withAdded, List.nil_append, added, List.length_map, List.filter_replicate]
  cases type <;> simp [ebxCall]

theorem addAll_append {addedBundles : Std.TreeSet UInt32} {calls : List FileCall}
    {m m₁ : LayoutManifest} {entries e₁ : BundleEntries}
    (h : addAll addedBundles calls m entries = .ok (m₁, e₁)) (more : List FileCall) :
    addAll addedBundles (calls ++ more) m entries = addAll addedBundles more m₁ e₁ := by
  induction calls generalizing m entries with
  | nil =>
      cases h
      rfl
  | cons call calls ih =>
      obtain ⟨⟨m', e'⟩, hadd, hrest⟩ := bind_eq_ok h
      rw [List.cons_append, addAll, hadd]
      exact ih hrest

/-- After so many calls the count is zero again. -/
theorem addAll_usedUp {k : Nat} (hk : k = 2 ^ 32) :
    ∃ m' entries',
      addAll addedByMod (List.replicate k ebxCall) newBundle {} = .ok (m', entries') ∧
      ¬ Sectioned m' entries' 1 emptyFile
        (withAdded (fun _ => []) (filesFor 1 (List.replicate k ebxCall))) := by
  obtain ⟨n, rfl⟩ : ∃ n, k = n + 1 := ⟨k - 1, by omega⟩
  have hfits : addedByMod.contains 1 = true → ∀ type,
      (withAdded (fun _ => []) (filesFor 1 (List.replicate n ebxCall)) type).length < 2 ^ 32 := by
    intro _ type
    rw [filesFor_replicate, withAdded_replicate]
    split <;> omega
  obtain ⟨m₁, e₁, hrun⟩ := exists_addAll newBundle_sectioned hfits fun call hcall => by
    rw [(List.mem_replicate.mp hcall).2]
    rfl
  have hfull := addAll_sectioned newBundle_sectioned hfits hrun
  rw [accepted_of_custom contains_addedByMod, filesFor_replicate] at hfull
  obtain ⟨m₂, e₂, hadd⟩ := exists_addFileToBundle addedByMod hfull emptyFile .ebx
  refine ⟨m₂, e₂, ?_, fun hsectioned => ?_⟩
  · rw [List.replicate_succ', addAll_append hrun, addAll]
    exact congrArg (· >>= _) hadd
  · have hlength := hsectioned.counts .ebx
    rw [filesFor_replicate, withAdded_replicate, if_pos rfl] at hlength
    -- A count of 32 bits is never so large.
    have hlt := ((e₂.at 1).sectionCount .ebx).toNat_lt
    omega

/-- Each of the calls is carried out, and in the end the count is not the section's length. -/
theorem sections_not_kept :
    Sectioned newBundle {} 1 emptyFile (fun _ => []) ∧ ∃ m' entries',
      addAll addedByMod (List.replicate (2 ^ 32) ebxCall) newBundle {} = .ok (m', entries') ∧
      ¬ Sectioned m' entries' 1 emptyFile
        (withAdded (fun _ => []) (filesFor 1 (List.replicate (2 ^ 32) ebxCall))) :=
  ⟨newBundle_sectioned, addAll_usedUp rfl⟩

def fileOf (n : Int64) : FileInfo := { emptyFile with size := n }

/-- Two bundles of the game, the first of which has a file in each section. -/
def twoBundles : LayoutManifest where
  bundleInfo := (({} : Std.TreeMap UInt32 BundleInfo).insert 1
    { hash := 1, files := [fileOf 0, fileOf 1, fileOf 2, fileOf 3] }).insert 2
      { hash := 2, files := [fileOf 4] }

def twoEntries : BundleEntries :=
  (({} : BundleEntries).insert 1 { hash := 1, ebxCount := 1, resCount := 1, chunkCount := 1 }).insert
    2 { hash := 2 }

def oneEach : AssetType → List FileInfo
  | .ebx => [fileOf 1]
  | .res => [fileOf 2]
  | .chunk => [fileOf 3]

/-- Calls of all types, one of them for the other bundle. -/
def mixedCalls : List FileCall :=
  [⟨1, .chunk, fileOf 10⟩, ⟨2, .ebx, fileOf 11⟩, ⟨1, .ebx, fileOf 12⟩, ⟨1, .res, fileOf 13⟩,
    ⟨1, .ebx, fileOf 14⟩, ⟨1, .chunk, fileOf 15⟩]

theorem twoBundles_sectioned : Sectioned twoBundles twoEntries 1 (fileOf 0) oneEach where
  files := by decide
  counts type := by cases type <;> decide

/-- Each file goes to the end of its section. -/
theorem sections_kept_twoBundles : ∃ m' entries',
    addAll {} mixedCalls twoBundles twoEntries = .ok (m', entries') ∧
      Sectioned m' entries' 1 (fileOf 0)
        (withAdded oneEach (accepted {} 1 (twoEntries.at 1) (filesFor 1 mixedCalls))) ∧
      (m'.bundleInfo[(1 : UInt32)]?.map fun info => info.files.map (·.size)) =
        some [0, 1, 12, 14, 2, 13, 3, 10, 15] := by
  have hrun : (addAll {} mixedCalls twoBundles twoEntries).toOption.map
      (fun r => r.1.bundleInfo[(1 : UInt32)]?.map fun info => info.files.map (·.size)) =
        some (some [0, 1, 12, 14, 2, 13, 3, 10, 15]) := by decide
  obtain ⟨⟨m', entries'⟩, hresult, hsizes⟩ := Option.map_eq_some_iff.mp hrun
  have hok : addAll {} mixedCalls twoBundles twoEntries = .ok (m', entries') := by
    cases h : addAll {} mixedCalls twoBundles twoEntries with
    | error _ =>
        rw [h] at hresult
        cases hresult
    | ok r =>
        rw [h] at hresult
        cases hresult
        rfl
  have hcustom : ({} : Std.TreeSet UInt32).contains 1 = true →
      ∀ type, (withAdded oneEach (filesFor 1 mixedCalls) type).length < 2 ^ 32 := by
    intro h
    exact absurd h (by decide)
  exact ⟨m', entries', hok, (sections_kept {} twoBundles_sectioned mixedCalls hcustom).1 _ _ hok,
    hsizes⟩

end Kyber.ModLoader.LayoutManifest
