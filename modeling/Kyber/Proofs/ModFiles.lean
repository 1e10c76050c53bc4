import Kyber.ModLoader.LoadMod
import Kyber.Proofs.Aggregation
import Kyber.Proofs.Finalize
import Mathlib.Data.List.Nodup

/-!
# The file ids of mods

Mods are numbered through the free cas numbers of the catalogs, one catalog after the other.
`nextCatalog_spec` says where the number `n` ends up: the free numbers of the catalogs in front
of it and the place among its own add up to `n`. So different numbers get different ids.

The places count from one, since the loop moves on to the next catalog only when a place is
beyond the last. The first mod has the number zero and gets the place in front of the first
one, which is the last cas file of the first catalog. All the others come behind the cas files
of the game.
-/

namespace Kyber.ModLoader

open Kyber.Lib

/-! ## Places -/

/-- The free cas numbers of the first `i` catalogs. -/
def room (sizes : List UInt8) (i : Nat) : Nat :=
  ((sizes.take i).map fun size => 255 - size.toNat).sum

theorem nextCatalog_spec {sizes : List UInt8} {catalogIndex c : Int32} {casIndex k : UInt32}
    (h : nextCatalog sizes catalogIndex casIndex = .ok (c, k)) :
    ∃ i j size, sizes[i]? = some size ∧ c = catalogIndex + Int32.ofNat i ∧
      k.toNat = size.toNat + j ∧ size.toNat + j ≤ 255 ∧ casIndex.toNat = room sizes i + j ∧
      (j = 0 → casIndex.toNat = 0) := by
  induction sizes generalizing catalogIndex casIndex with
  | nil => cases h
  | cons size sizes ih =>
      have hsize := size.toNat_lt
      have hspace : (0xFF - size.toUInt32).toNat = 255 - size.toNat := by
        rw [UInt32.toNat_sub_of_le]
        · rfl
        · rw [UInt32.le_iff_toNat_le, UInt8.toNat_toUInt32]
          exact Nat.le_of_lt_succ hsize
      rw [nextCatalog] at h
      split at h
      next hfull =>
        rw [gt_iff_lt, UInt32.lt_iff_toNat_lt, hspace] at hfull
        obtain ⟨i, j, found, hfound, rfl, hk, hle, hroom, hzero⟩ := ih h
        rw [UInt32.toNat_sub_of_le _ _ (by rw [UInt32.le_iff_toNat_le, hspace]; omega),
          hspace] at hroom hzero
        refine ⟨i + 1, j, found, hfound, ?_, hk, hle, ?_, fun hj => ?_⟩
        · rw [Int32.add_assoc, Int32.ofNat_add, Int32.add_comm 1]
          rfl
        · rw [room, List.take_succ_cons, List.map_cons, List.sum_cons, ← room]
          omega
        · have := hzero hj
          omega
      next hfits =>
        rw [gt_iff_lt, UInt32.lt_iff_toNat_lt, hspace] at hfits
        cases h
        refine ⟨0, casIndex.toNat, size, rfl, ?_, ?_, by omega, ?_, id⟩
        · exact (Int32.add_zero _).symm
        · rw [UInt32.toNat_add, UInt8.toNat_toUInt32]
          omega
        · simp [room]

/-! ## Ids -/

theorem and_of_or (a b c : Int32) : (a ||| b) &&& c = a &&& c ||| b &&& c :=
  Int32.toBitVec.inj BitVec.and_or_distrib_right

/-- What the number of a catalog leaves in the parts of an id. -/
theorem catalog_bits : ∀ i : Fin 7, (Int32.ofNat i + 1) <<< 12 >>> 12 = Int32.ofNat i + 1 ∧
    (Int32.ofNat i + 1) <<< 12 &&& 0x100 = 0 ∧ (Int32.ofNat i + 1) <<< 12 &&& 0xFF = 0 := by
  decide

/-- What the number of a cas file leaves there. -/
theorem cas_bits : ∀ k : Fin 255,
    ((UInt32.ofNat (k + 1)).toInt32 - 1) &&& 0xFF = Int32.ofNat k ∧ Int32.ofNat k >>> 12 = 0 ∧
      Int32.ofNat k &&& 0x100 = 0 ∧ Int32.ofNat k &&& 0xFF = Int32.ofNat k := by
  decide +kernel

/-- An id leads back to the catalog and the cas number it was made of. -/
theorem casFile_fileId (i : Fin 7) (k : Fin 255) :
    casFile (fileId (Int32.ofNat i) (UInt32.ofNat (k + 1))) =
      { catalogIndex := Int32.ofNat i, isInPatch := false, casIndex := Int32.ofNat (k + 1) } := by
  obtain ⟨hcatalog, hpatch, hcas⟩ := catalog_bits i
  obtain ⟨hk, hcatalog', hpatch', hcas'⟩ := cas_bits k
  rw [fileId, hk, casFile, Int32.shiftRight_or, and_of_or, and_of_or, hcatalog, hpatch, hcas,
    hcatalog', hpatch', hcas', Int32.or_zero, Int32.add_sub_cancel, Int32.ofNat_add]
  simp only [Int32.zero_or, ne_eq, not_true_eq_false, decide_false]
  rfl

/-- The mod number `n` gets the place `j` in the catalog `i`. -/
structure PlacedAt (n : Nat) (file : Int32) (i j : Nat) (size : UInt8) : Prop where
  catalog : catalogSizes[i]? = some size
  file_eq : casFile file =
    { catalogIndex := Int32.ofNat i, isInPatch := false, casIndex := Int32.ofNat (size.toNat + j) }
  fits : size.toNat + j ≤ 255
  number : n % 2 ^ 32 = room catalogSizes i + j
  first : j = 0 → n % 2 ^ 32 = 0

theorem catalogSizes_pos {size : UInt8} (h : size ∈ catalogSizes) : 0 < size.toNat := by
  rw [catalogSizes] at h
  simp only [List.mem_cons, List.not_mem_nil, or_false] at h
  obtain rfl | rfl | rfl | rfl | rfl | rfl | rfl := h <;> decide

theorem PlacedAt.bounds {n : Nat} {file : Int32} {i j : Nat} {size : UInt8}
    (h : PlacedAt n file i j size) : i < 7 ∧ 0 < size.toNat := by
  have hlt : i < 7 := (List.getElem?_eq_some_iff.mp h.catalog).1
  exact ⟨hlt, catalogSizes_pos (List.mem_of_getElem? h.catalog)⟩

theorem getNextModFile_placed {n : Nat} {file : Int32} (h : getNextModFile n = .ok file) :
    ∃ i j size, PlacedAt n file i j size := by
  rw [getNextModFile] at h
  obtain ⟨⟨c, k⟩, hnext, h⟩ := bind_eq_ok h
  cases h
  obtain ⟨i, j, size, hsize, rfl, hk, hle, hroom, hzero⟩ := nextCatalog_spec hnext
  have hi : i < 7 := (List.getElem?_eq_some_iff.mp hsize).1
  have hpos := catalogSizes_pos (List.mem_of_getElem? hsize)
  rw [UInt32.toNat_ofNat'] at hroom hzero
  refine ⟨i, j, size, hsize, ?_, hle, hroom, hzero⟩
  have hid := casFile_fileId ⟨i, hi⟩ ⟨size.toNat + j - 1, by omega⟩
  have hone : size.toNat + j - 1 + 1 = size.toNat + j := by omega
  simp only [hone] at hid
  rw [← hid, Int32.zero_add, ← hk, UInt32.ofNat_toNat]

/-- The id of a cas file that the game does not have: one in a catalog, behind those of the
game. -/
def IsModCas (file : Int32) : Prop :=
  ∃ (i : Nat) (size : UInt8), catalogSizes[i]? = some size ∧
    (casFile file).catalogIndex.toInt = i ∧ (casFile file).isInPatch = false ∧
    (size.toNat : Int) < (casFile file).casIndex.toInt ∧ (casFile file).casIndex.toInt ≤ 255

theorem PlacedAt.isModCas_iff {n : Nat} {file : Int32} {i j : Nat} {size : UInt8}
    (h : PlacedAt n file i j size) : IsModCas file ↔ n % 2 ^ 32 ≠ 0 := by
  have hi := h.bounds.1
  have hfits := h.fits
  have hcatalog : (Int32.ofNat i).toInt = i := Int32.toInt_ofNat_of_lt (by omega)
  have hcas : (Int32.ofNat (size.toNat + j)).toInt = (size.toNat + j : Nat) :=
    Int32.toInt_ofNat_of_lt (by omega)
  rw [IsModCas, h.file_eq]
  simp only [hcatalog, hcas]
  constructor
  · rintro ⟨i', size', hsize', heq, -, hlt, -⟩ hzero
    obtain rfl : i = i' := by omega
    obtain rfl : size = size' := Option.some.inj (h.catalog.symm.trans hsize')
    have hnumber := h.number
    omega
  · intro hne
    have hj : j ≠ 0 := fun hj => hne (h.first hj)
    exact ⟨i, size, h.catalog, rfl, trivial, by omega, by omega⟩

/-- An id tells the number it was given for. -/
theorem PlacedAt.unique {n n' : Nat} {file : Int32} {i i' j j' : Nat} {size size' : UInt8}
    (h : PlacedAt n file i j size) (h' : PlacedAt n' file i' j' size') :
    n % 2 ^ 32 = n' % 2 ^ 32 := by
  have heq := h.file_eq.symm.trans h'.file_eq
  rw [CasFile.mk.injEq] at heq
  have hi := h.bounds.1
  have hi' := h'.bounds.1
  have hfits := h.fits
  have hfits' := h'.fits
  have hcatalog := congrArg Int32.toInt heq.1
  rw [Int32.toInt_ofNat_of_lt (by omega), Int32.toInt_ofNat_of_lt (by omega)] at hcatalog
  obtain rfl : i = i' := by omega
  obtain rfl : size = size' := Option.some.inj (h.catalog.symm.trans h'.catalog)
  have hcas := congrArg Int32.toInt heq.2.2
  rw [Int32.toInt_ofNat_of_lt (by omega), Int32.toInt_ofNat_of_lt (by omega)] at hcas
  rw [h.number, h'.number]
  omega

/-! ## Resources -/

/-- What `LoadMod` says of the resources it makes. -/
structure ModResource.LoadedFrom (fbFile : Int32) (r : ModResource) : Prop where
  id_eq : r.uniqueIdWithType = idWithType r.type r.name
  fbFile_eq : r.data.fbFile = fbFile
  /-- A resource has a buffer only for the data that a handler is to merge. -/
  buffer : r.data.buffer.isSome → r.handlerHash ≠ 0 ∧ r.resourceIndex ≠ -1
  used : r.type = .bundle ∨ r.resourceIndex ≠ -1 ∨ r.bundles ≠ []

theorem RTFrostyMod.of_buffer_isSome {mod : RTFrostyMod} {resource : RTFrostyResource}
    {buffer : Option (List UInt8)} (h : mod.buffer resource = some buffer)
    (hsome : buffer.isSome = true) : resource.handlerHash ≠ 0 ∧ resource.resourceIndex ≠ -1 := by
  unfold RTFrostyMod.buffer at h
  split at h
  next hread => exact ⟨hread.2, hread.1⟩
  next =>
    cases h
    cases hsome

theorem RTFrostyMod.modResource_loadedFrom {mod : RTFrostyMod} {vanilla : VanillaTables}
    {fbFile : Int32} {resource : RTFrostyResource} {r : ModResource}
    (h : mod.modResource vanilla fbFile resource = some r) : r.LoadedFrom fbFile := by
  unfold RTFrostyMod.modResource at h
  split at h
  next => cases h
  next buffer hbuffer =>
    simp only [ne_eq, List.isEmpty_iff] at h
    split at h
    next => cases h
    next hskip =>
      cases h
      refine ⟨rfl, rfl, mod.of_buffer_isSome hbuffer, ?_⟩
      by_contra hused
      push Not at hused
      exact hskip hused

/-! ## Runs of `LoadMod` -/

def ModFile.isLoaded : ModFile → Bool
  | .notOpened => false
  | .notLoaded => false
  | .loaded _ => true

/-- A file that `LoadMod` was called on, and the mod that it made of it. -/
def MadeOf (vanilla : VanillaTables) (call : ByteString × ModFile) (loaded : LoadedMod) : Prop :=
  ∃ mod, call = (loaded.path, .loaded mod) ∧ ∀ r ∈ loaded.resources,
    ∃ resource ∈ mod.resources, mod.modResource vanilla loaded.fbFile resource = some r

theorem MadeOf.loadedFrom {vanilla : VanillaTables} {call : ByteString × ModFile}
    {loaded : LoadedMod} (h : MadeOf vanilla call loaded) {r : ModResource}
    (hr : r ∈ loaded.resources) : r.LoadedFrom loaded.fbFile := by
  obtain ⟨mod, -, hresources⟩ := h
  obtain ⟨resource, -, hresource⟩ := hresources r hr
  exact mod.modResource_loadedFrom hresource

/-- The mods have been loaded one after the other. -/
structure Numbered (mods : List LoadedMod) : Prop where
  files : ∀ (i : Nat) (mod : LoadedMod), mods[i]? = some mod → getNextModFile i = .ok mod.fbFile
  resources : ∀ mod ∈ mods, ∀ r ∈ mod.resources, r.LoadedFrom mod.fbFile

theorem Numbered.nil : Numbered [] where
  files _ _ h := by cases h
  resources _ h := by cases h

theorem Numbered.concat {mods : List LoadedMod} (h : Numbered mods) {mod : LoadedMod}
    (hfile : getNextModFile mods.length = .ok mod.fbFile)
    (hresources : ∀ r ∈ mod.resources, r.LoadedFrom mod.fbFile) : Numbered (mods ++ [mod]) where
  files i mod' hmod' := by
    rcases Nat.lt_trichotomy i mods.length with hlt | rfl | hgt
    · rw [List.getElem?_append_left hlt] at hmod'
      exact h.files i mod' hmod'
    · rw [List.getElem?_concat_length] at hmod'
      cases hmod'
      exact hfile
    · rw [List.getElem?_eq_none (by rw [List.length_append, List.length_singleton]; omega)] at hmod'
      cases hmod'
  resources mod' hmod' := by
    rcases List.mem_append.mp hmod' with hold | hnew
    · exact h.resources mod' hold
    · obtain rfl := List.mem_singleton.mp hnew
      exact hresources

/-- The limit is reached before the count is too large for its 32 bits. -/
theorem Numbered.length_le {mods : List LoadedMod} (h : Numbered mods) : mods.length ≤ 1740 := by
  by_contra hlong
  have hlimit := h.files 1740 mods[1740] (List.getElem?_eq_getElem (by omega))
  have hfull : getNextModFile 1740 = .error .outOfBounds := by decide
  rw [hfull] at hlimit
  cases hlimit

theorem Numbered.nodup {mods : List LoadedMod} (h : Numbered mods) :
    (mods.map LoadedMod.fbFile).Nodup := by
  have hlength := h.length_le
  rw [List.nodup_iff_getElem?_ne_getElem?]
  intro i j hij hj heq
  rw [List.length_map] at hj
  rw [List.getElem?_map, List.getElem?_map, List.getElem?_eq_getElem (Nat.lt_trans hij hj),
    List.getElem?_eq_getElem hj, Option.map_some, Option.map_some, Option.some.injEq] at heq
  obtain ⟨_, _, _, hplaced⟩ :=
    getNextModFile_placed (h.files i _ (List.getElem?_eq_getElem (Nat.lt_trans hij hj)))
  obtain ⟨_, _, _, hplaced'⟩ := getNextModFile_placed (h.files j _ (List.getElem?_eq_getElem hj))
  rw [← heq] at hplaced'
  have hnumber := hplaced.unique hplaced'
  rw [Nat.mod_eq_of_lt (by omega), Nat.mod_eq_of_lt (by omega)] at hnumber
  omega

/-- The first mod gets a cas file of the game, and no other does. -/
theorem Numbered.isModCas_iff {mods : List LoadedMod} (h : Numbered mods) {i : Nat}
    {mod : LoadedMod} (hmod : mods[i]? = some mod) : IsModCas mod.fbFile ↔ i ≠ 0 := by
  have hlength := h.length_le
  have hlt := (List.getElem?_eq_some_iff.mp hmod).1
  obtain ⟨_, _, _, hplaced⟩ := getNextModFile_placed (h.files i mod hmod)
  rw [hplaced.isModCas_iff, Nat.mod_eq_of_lt (by omega)]

namespace LoadedMods

variable {vanilla : VanillaTables}

theorem loadMod_cases {loader loader' : LoadedMods} {path : ByteString} {file : ModFile}
    (h : loader.loadMod vanilla path file = .ok loader') :
    file.isLoaded = false ∧ loader' = loader ∨
      file.isLoaded = true ∧ ∃ loaded, MadeOf vanilla (path, file) loaded ∧
        loader'.mods = loader.mods ++ [loaded] ∧
        getNextModFile loader.mods.length = .ok loaded.fbFile := by
  cases file with
  | notOpened =>
      cases h
      exact .inl ⟨rfl, rfl⟩
  | notLoaded =>
      cases h
      exact .inl ⟨rfl, rfl⟩
  | loaded mod =>
      obtain ⟨fbFile, hfile, h⟩ := bind_eq_ok h
      cases h
      refine .inr ⟨rfl, _, ⟨mod, rfl, fun r hr => ?_⟩, rfl, hfile⟩
      obtain ⟨resource, hmem, hresource⟩ := List.mem_filterMap.mp (List.mem_mergeSort.mp hr)
      exact ⟨resource, hmem, hresource⟩

/-- A run keeps the mods numbered, and has a mod for every file that is loaded. -/
theorem loadMods_numbered {calls : List (ByteString × ModFile)} {loader loader' : LoadedMods}
    (hrun : loadMods vanilla calls loader = .ok loader') (h : Numbered loader.mods) :
    Numbered loader'.mods ∧
      loader'.mods.length = loader.mods.length + calls.countP fun call => call.2.isLoaded := by
  induction calls generalizing loader with
  | nil =>
      cases hrun
      exact ⟨h, rfl⟩
  | cons call calls ih =>
      obtain ⟨loader₁, hcall, hrest⟩ := bind_eq_ok hrun
      rcases loadMod_cases hcall with ⟨hnot, rfl⟩ | ⟨hloaded, mod, hmade, hmods, hfile⟩
      · rw [List.countP_cons_of_neg (by rw [hnot]; exact Bool.false_ne_true)]
        exact ih hrest h
      · obtain ⟨hnumbered, hlength⟩ := ih hrest (by
          rw [hmods]
          exact h.concat hfile fun r hr => hmade.loadedFrom hr)
        refine ⟨hnumbered, ?_⟩
        rw [hlength, hmods, List.length_append, List.length_singleton, List.countP_cons,
          if_pos hloaded]
        omega

end LoadedMods

/-- The ids of mods are different from each other, and all but that of the first mod are none of
the game's: none is exactly if no mod is loaded. -/
theorem modFiles_iff (vanilla : VanillaTables) :
    (∀ n file, getNextModFile n = .ok file → (IsModCas file ↔ n % 2 ^ 32 ≠ 0)) ∧
      (∀ n n' file, getNextModFile n = .ok file → getNextModFile n' = .ok file →
        n % 2 ^ 32 = n' % 2 ^ 32) ∧
      ∀ calls loader, LoadedMods.loadMods vanilla calls {} = .ok loader →
        (loader.mods.map LoadedMod.fbFile).Nodup ∧
        (∀ mod ∈ loader.mods.tail, IsModCas mod.fbFile) ∧
        ((∀ mod ∈ loader.mods, IsModCas mod.fbFile) ↔ ∀ call ∈ calls, call.2.isLoaded = false) := by
  refine ⟨fun n file h => ?_, fun n n' file h h' => ?_, fun calls loader hrun => ?_⟩
  · obtain ⟨_, _, _, hplaced⟩ := getNextModFile_placed h
    exact hplaced.isModCas_iff
  · obtain ⟨_, _, _, hplaced⟩ := getNextModFile_placed h
    obtain ⟨_, _, _, hplaced'⟩ := getNextModFile_placed h'
    exact hplaced.unique hplaced'
  · obtain ⟨hnumbered, hlength⟩ := LoadedMods.loadMods_numbered hrun Numbered.nil
    refine ⟨hnumbered.nodup, fun mod hmod => ?_, ?_⟩
    · obtain ⟨i, hi⟩ := List.mem_iff_getElem?.mp hmod
      rw [List.getElem?_tail] at hi
      exact (hnumbered.isModCas_iff hi).mpr (Nat.succ_ne_zero i)
    · have hcount : (∀ call ∈ calls, call.2.isLoaded = false) ↔ loader.mods = [] := by
        rw [← List.length_eq_zero_iff, hlength, List.length_nil, Nat.zero_add,
          List.countP_eq_zero]
        simp only [Bool.not_eq_true]
      rw [hcount]
      constructor
      · intro hall
        by_contra hne
        obtain ⟨mod, mods, hmods⟩ := List.exists_cons_of_ne_nil hne
        have hfirst : loader.mods[0]? = some mod := by rw [hmods]; rfl
        exact (hnumbered.isModCas_iff hfirst).mp (hall mod (List.mem_of_getElem? hfirst)) rfl
      · intro hnil mod hmod
        rw [hnil] at hmod
        cases hmod

/-- A mod without resources. -/
def emptyMod : ModFile :=
  .loaded { dataOffset := 0, dataCount := 0, resources := [], readFp := fun _ => (0, 0)
            readModResource := fun _ => none }

/-- The second of two mods, with a file between them that is not there. -/
theorem modFiles_iff_two :
    (IsModCas 0x100A ↔ 1 % 2 ^ 32 ≠ 0) ∧ ∃ loader,
      LoadedMods.loadMods noVanilla [([], emptyMod), ([], .notOpened), ([], emptyMod)] {}
        = .ok loader ∧
      loader.mods.map LoadedMod.fbFile = [0x1009, 0x100A] ∧
      (loader.mods.map LoadedMod.fbFile).Nodup ∧
      ∀ mod ∈ loader.mods.tail, IsModCas mod.fbFile :=
  have h := modFiles_iff noVanilla
  have hrun := h.2.2 [([], emptyMod), ([], .notOpened), ([], emptyMod)] _ rfl
  ⟨h.1 1 0x100A (by decide), _, rfl, by decide, hrun.1, hrun.2.1⟩

/-- The first mod gets the id of `cas_10` of the first catalog, which is the game's. -/
theorem first_mod_has_vanilla_file :
    getNextModFile 0 = .ok 0x1009 ∧
      casFile 0x1009 = { catalogIndex := 0, isInPatch := false, casIndex := 10 } ∧
      ¬ IsModCas 0x1009 ∧ ∃ loader, LoadedMods.loadMods noVanilla [([], emptyMod)] {} = .ok loader ∧
        ∃ mod ∈ loader.mods, ¬ IsModCas mod.fbFile := by
  have hfirst : getNextModFile 0 = .ok 0x1009 := by decide
  obtain ⟨_, _, _, hplaced⟩ := getNextModFile_placed hfirst
  have hnot : ¬ IsModCas 0x1009 := fun h => hplaced.isModCas_iff.mp h rfl
  exact ⟨hfirst, by decide, hnot, _, rfl, _, List.mem_singleton.mpr rfl, hnot⟩

end Kyber.ModLoader
