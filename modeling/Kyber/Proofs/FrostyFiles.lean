import Kyber.Proofs.Finalize
import Kyber.Proofs.FrostyData

/-!
# Mods from the file to the loader

`written_mod_read` starts with a mod and follows it through its file: the launcher shows it and
the game loads it, with all that was written. `data_agree` starts with a file, whoever has written
it, and follows the data of its resources: into the pictures that the launcher shows, and to the
places in the file that the loader notes for the bundles it will merge.
-/

namespace Kyber.ModLoader.Rt

open Kyber.Lib Kyber.Frosty

/-! ## What the loader keeps -/

section

variable (memory : Nat → UInt8) (decompressEbx : List UInt8 → Except RtError (List UInt8))
  (content : List UInt8)

/-- A mod of which the file is at hand. -/
def openedMod (mod : FrostyMod) : RTFrostyMod :=
  let table : RTFrostyMod := {
    dataOffset := mod.dataOffset
    dataCount := mod.dataCount
    resources := mod.resources.map (·.toRTFrostyResource)
    readFp := fun place => ((readEntry place { content }).map Prod.fst).toOption.getD (0, 0)
    readModResource := fun _ => none }
  { table with
    readModResource := fun r =>
      ((frostyReadModResource memory decompressEbx table r { content }).map Prod.fst).toOption }

theorem openedMod_backed (mod : FrostyMod) :
    Backed memory decompressEbx content mod (openedMod memory decompressEbx content mod) where
  dataOffset_eq := rfl
  dataCount_eq := rfl
  resources_eq := rfl
  readFp_eq place _ := by
    obtain ⟨found, hfound⟩ : ∃ found, readEntry place { content } = .ok found := ⟨_, rfl⟩
    show _ = Except.ok (((readEntry place { content }).map Prod.fst).toOption.getD (0, 0))
    rw [hfound]
    rfl
  readModResource_eq r _ _ := rfl

end

variable {memory : Nat → UInt8} {decompressEbx : List UInt8 → Except RtError (List UInt8)}
  {content rest : List UInt8} {m : Mod} {mod : FrostyMod} {rt : RTFrostyMod}
  {vanilla : VanillaTables} {fbFile : Int32}

/-- The resources of a mod as the loader has them, in their order. -/
theorem filterMap_brings (hcomplete : Complete content m)
    (hoffset : rt.dataOffset = m.header.dataOffset.toInt64)
    (hcount : rt.dataCount = m.header.dataCount.toInt32)
    (hfp : ∀ place, 0 ≤ place →
      (readEntry place { content }).map Prod.fst = .ok (rt.readFp place))
    {rs : List Resource} {loaded : List FrostyResource} (hsub : ∀ r ∈ rs, r ∈ m.resources)
    (hrs : rs.mapM loadResource = .ok loaded)
    (hread : ∀ r ∈ loaded, 0 ≤ rt.soughtPlace r.toRTFrostyResource →
      rt.readModResource r.toRTFrostyResource = ((frostyReadModResource memory decompressEbx rt
        r.toRTFrostyResource { content }).map Prod.fst).toOption) :
    List.Forall₂ (Brings content m) (rs.filter Kept)
      ((loaded.map (·.toRTFrostyResource)).filterMap (rt.modResource vanilla fbFile)) := by
  induction rs generalizing loaded with
  | nil =>
      cases hrs
      exact List.Forall₂.nil
  | cons r rs ih =>
      rw [List.mapM_cons] at hrs
      cases hr : loadResource r with
      | error e =>
          rw [hr] at hrs
          cases hrs
      | ok first =>
          cases htail : rs.mapM loadResource with
          | error e =>
              rw [hr, htail] at hrs
              cases hrs
          | ok others =>
              rw [hr, htail] at hrs
              cases hrs
              have hothers := ih (fun x hx => hsub x (List.mem_cons_of_mem _ hx)) htail
                fun x hx => hread x (List.mem_cons_of_mem _ hx)
              have hfirst := modResource_brings vanilla fbFile hr
                hcomplete.length_lt (hcomplete.stored r (hsub r List.mem_cons_self)) hoffset hcount
                hfp (hread first List.mem_cons_self)
              rw [List.map_cons]
              by_cases hk : Kept r = true
              · rw [if_pos hk] at hfirst
                obtain ⟨asset, hasset, hbrings⟩ := hfirst
                rw [List.filter_cons_of_pos hk, List.filterMap_cons_some hasset]
                exact List.Forall₂.cons hbrings hothers
              · rw [if_neg hk] at hfirst
                rw [List.filter_cons_of_neg hk, List.filterMap_cons_none hfirst]
                exact hothers

/-- What `LoadMod` puts at the end of the loader's mods. -/
theorem loadMod_brings (hcomplete : Complete content m) (hload : load m = .ok mod)
    (hbacked : Backed memory decompressEbx content mod rt) {loader loader' : LoadedMods}
    {fileName : ByteString} (h : loader.loadMod vanilla fileName (.loaded rt) = .ok loader') :
    ∃ kmod assets, loader'.mods = loader.mods ++ [kmod] ∧ kmod.path = fileName ∧
      assets.Perm kmod.resources ∧
        List.Forall₂ (Brings content m) (m.resources.filter Kept) assets := by
  obtain ⟨-, hoffset, hcount, hresources⟩ := load_eq_ok hload
  cases hfile : getNextModFile loader.mods.length with
  | error e =>
      rw [LoadedMods.loadMod, hfile] at h
      cases h
  | ok fbFile =>
      rw [LoadedMods.loadMod, hfile] at h
      cases h
      refine ⟨_, _, rfl, rfl, (List.mergeSort_perm _ _).symm, ?_⟩
      rw [hbacked.resources_eq]
      have hread : ∀ r ∈ mod.resources, 0 ≤ rt.soughtPlace r.toRTFrostyResource →
          rt.readModResource r.toRTFrostyResource = ((frostyReadModResource memory decompressEbx rt
            r.toRTFrostyResource { content }).map Prod.fst).toOption := by
        intro r hr
        refine hbacked.readModResource_eq _ ?_
        rw [hbacked.resources_eq]
        exact List.mem_map_of_mem hr
      exact filterMap_brings hcomplete (hbacked.dataOffset_eq.trans hoffset)
        (hbacked.dataCount_eq.trans hcount) hbacked.readFp_eq (fun r hr => hr) hresources hread

end Kyber.ModLoader.Rt

namespace Kyber.Collection.ModReader

open Kyber.Lib Kyber.Frosty Kyber.ModLoader

variable {γ : Type} (buffers : Buffers) (fromJson : List UInt8 → Option γ) (filename : DartString)

/-! ## A mod with an icon -/

section

/-- An icon, and a file of the game that is put into one more bundle. -/
def skins : Mod where
  header := {
    version := 5, dataOffset := 139, dataCount := 1, profile := profile, gameVersion := 0 }
  details := {
    title := [0x53, 0x6b, 0x69, 0x6e, 0x73]
    author := [0x41]
    category := [0x53, 0x6b, 0x69, 0x6e, 0x73]
    version := [0x31, 0x2e, 0x30]
    description := []
    link := some [] }
  resources := [
    { index := 0, name := some [0x49, 0x63, 0x6f, 0x6e], skipped := [], bundles := []
      kind := .embedded
      payload := some {
        sha1 := List.replicate 20 0, size := 4, flags := 0, handlerHash := 0, userData := some [] } },
    { index := -1, name := some [0x6b, 0x69, 0x74], payload := none, skipped := [], bundles := [7]
      kind := .ebx }]

theorem skins_writable : skins.Writable where
  header := ⟨by decide, by decide⟩
  details := by
    refine ⟨?_, ?_, ?_, ?_, ?_, ?_, ?_⟩ <;> simp [skins, Terminated]
  resources_length := show 2 < 2 ^ 31 by omega
  resources := by
    have hbound : 0 < 2 ^ 31 ∧ 1 < 2 ^ 31 := by omega
    have hversion : (3 : UInt32) < skins.header.version := by decide
    intro r hr
    rcases List.mem_cons.mp hr with rfl | hr
    · refine ⟨iff_of_true rfl (.inr hversion), by simp [Terminated], iff_of_true rfl (by decide), ?_,
        hbound.1, fun _ => rfl, hbound.1, fun _ _ => rfl, trivial⟩
      intro p hp
      cases hp
      exact ⟨rfl, iff_of_true rfl (by decide), by simp [Terminated]⟩
    · rw [List.mem_singleton.mp hr]
      exact ⟨iff_of_true rfl (.inr hversion), by simp [Terminated], by simp, by simp, hbound.1,
        fun _ => rfl, hbound.2, fun hold => absurd hold (UInt32.not_le.mpr hversion), trivial⟩

def skinsFile : WrittenMod where
  mod := skins
  data := [[0x89, 0x50, 0x4e, 0x47]]
  writable := skins_writable
  dataOffset_eq := by decide +kernel
  dataCount_eq := by decide
  index_lt := by decide

theorem skinsFile_length : skinsFile.bytes.length < 2 ^ 31 := by
  have hlength : skinsFile.bytes.length = 159 := by decide +kernel
  omega

def plainBuffers : Buffers where
  buffer _ bytes := bytes
  complete _ := rfl

end

/-! ## Mods that have been written -/

/-- A mod that has been written is shown as it is, with its resources and their data, and the game
makes of it what it makes of such a mod: it loads it if it knows the version and has room for the
metadata. -/
theorem written_mod_read (file : WrittenMod) (hlength : file.bytes.length < 2 ^ 31)
    (hne : file.mod.resources ≠ []) :
    ((Rt.frostyLoadMod { content := file.bytes }).map Prod.fst = Rt.load file.mod ∧
        (Rt.Loadable file.mod → ∃ mod, Rt.load file.mod = .ok mod)) ∧
      (∃ offset r, readMod buffers fromJson filename (Reader.opened file.bytes) =
          .ok (some (shownMod fromJson filename file.bytes file.mod offset), r) ∧
        (∃ r', readResources buffers (shownMod fromJson filename file.bytes file.mod offset)
          (Reader.opened file.bytes) = .ok (file.mod.resources.map baseResource, r')) ∧
        ∃ r', readScreenshots buffers (shownMod fromJson filename file.bytes file.mod offset)
          (Reader.opened file.bytes) = .ok (screenshots file.bytes file.mod, r')) ∧
      ∀ res ∈ file.mod.resources, picture file.bytes file.mod res =
        if res.index = -1 then none else file.data[res.index.toNatClampNeg]? := by
  have hcomplete := file.complete hlength
  obtain ⟨offset, r, rest, hread, hoffset, hrest, hresources⟩ := readMod_eq buffers
    fromJson filename file.reads hcomplete hne
  obtain ⟨r₁, hlist, -⟩ := readResources_eq buffers fromJson filename
    hoffset hrest hresources
  refine ⟨⟨Rt.frostyLoadMod_eq file.reads, Rt.load_of_loadable⟩, ⟨offset, r, hread, ⟨r₁, hlist⟩,
    readScreenshots_eq buffers fromJson filename hoffset hrest hresources hcomplete⟩, ?_⟩
  intro res hres
  rw [picture, resourceData]
  by_cases hindex : res.index = -1
  · rw [if_pos hindex, if_pos hindex]
  · have hlt := (file.index_lt res hres hindex).2
    rw [if_neg hindex, if_neg hindex, WrittenMod.dataOf_eq hlength hlt,
      List.getElem?_eq_getElem hlt]

/-- The mod with an icon: the launcher has it from the file. -/
theorem skins_read :
    (∃ mod, (Rt.frostyLoadMod { content := skinsFile.bytes }).map Prod.fst = .ok mod ∧
        Rt.load skins = .ok mod) ∧
      ∃ offset r, readMod plainBuffers (fun _ => (none : Option Unit)) []
          (Reader.opened skinsFile.bytes) = .ok (some (shownMod (fun _ => none) [] skinsFile.bytes
            skins offset), r) ∧
        ∀ res ∈ skins.resources, picture skinsFile.bytes skins res =
          if res.index = -1 then none
          else [[0x89, 0x50, 0x4e, 0x47]][res.index.toNatClampNeg]? := by
  obtain ⟨⟨hgame, hloads⟩, ⟨offset, r, hread, -, -⟩, hpicture⟩ := written_mod_read plainBuffers
    (fun _ => (none : Option Unit)) [] skinsFile skinsFile_length
      (List.cons_ne_nil _ _)
  obtain ⟨mod, hmod⟩ := hloads ⟨by decide, by decide⟩
  exact ⟨⟨mod, hgame.trans hmod, hmod⟩, offset, r, hread, hpicture⟩

/-- What the launcher shows of the mod with an icon is what the game makes a mod of. -/
theorem skins_agree : ∃ (mod : FrostyMod Unit) (rs : List BaseModResource) (m : Mod),
    (∃ r, readMod plainBuffers (fun _ => none) [] (Reader.opened skinsFile.bytes) =
      .ok (some mod, r)) ∧
    (∃ r, readResources plainBuffers mod (Reader.opened skinsFile.bytes) = .ok (rs, r)) ∧
      mod.Shows (m.header, m.details) ∧ rs = m.resources.map baseResource ∧
        (Rt.frostyLoadMod { content := skinsFile.bytes }).map Prod.fst = Rt.load m := by
  obtain ⟨offset, r, rest, hread, hoffset, hrest, hresources⟩ := readMod_eq plainBuffers
    (fun _ => (none : Option Unit)) [] skinsFile.reads (skinsFile.complete skinsFile_length)
      (List.cons_ne_nil _ _)
  obtain ⟨r', hlist, hwithin⟩ := readResources_eq plainBuffers
    (fun _ => (none : Option Unit)) [] hoffset hrest hresources
  have hvalid : ∀ res ∈ skins.resources.map baseResource, res.type ≠ .invalid := by
    intro res hres
    obtain ⟨x, -, rfl⟩ := List.mem_map.mp hres
    exact baseResource_valid x
  obtain ⟨m, hshows, hrs, hgame⟩ := readers_agree hread hlist hwithin hvalid
  exact ⟨_, _, m, ⟨r, hread⟩, ⟨r', hlist⟩, hshows, hrs, hgame⟩

/-! ## The data in a file -/

/-- What the launcher shows of the data in a file, and what the loader has once the game has loaded
the mod: it finds them where they are. -/
theorem data_agree {content rest : List UInt8} {m : Mod} (hparse : parse content = .ok (m, rest))
    (hcomplete : Complete content m) :
    (m.resources ≠ [] → ∃ offset r r',
      readMod buffers fromJson filename (Reader.opened content) =
          .ok (some (shownMod fromJson filename content m offset), r) ∧
        readScreenshots buffers (shownMod fromJson filename content m offset)
          (Reader.opened content) = .ok (screenshots content m, r')) ∧
    ∀ {memory : Nat → UInt8} {decompressEbx : List UInt8 → Except Rt.RtError (List UInt8)}
      {mod : Rt.FrostyMod} {rt : RTFrostyMod} {vanilla : VanillaTables}
      {loader loader' : LoadedMods} {fileName : ByteString},
      (Rt.frostyLoadMod { content }).map Prod.fst = .ok mod →
      Rt.Backed memory decompressEbx content mod rt →
      loader.loadMod vanilla fileName (.loaded rt) = .ok loader' →
      ∃ kmod assets, loader'.mods = loader.mods ++ [kmod] ∧ kmod.path = fileName ∧
        assets.Perm kmod.resources ∧
          List.Forall₂ (Rt.Brings content m) (m.resources.filter Rt.Kept) assets := by
  constructor
  · intro hne
    obtain ⟨offset, r, rest', hread, hoffset, hrest, hresources⟩ := readMod_eq buffers fromJson
      filename hparse hcomplete hne
    obtain ⟨r', hscreenshots⟩ := readScreenshots_eq buffers fromJson filename hoffset hrest
      hresources hcomplete
    exact ⟨offset, r, r', hread, hscreenshots⟩
  · intro memory decompressEbx mod rt vanilla loader loader' fileName hgame hbacked hload
    rw [Rt.frostyLoadMod_eq hparse] at hgame
    exact Rt.loadMod_brings hcomplete hgame hbacked hload

/-- The icon of the mod is in the loader's first mod, at the place that it has in the file. -/
theorem skins_data_agree : ∃ (kmod : LoadedMod) (assets : List ModResource),
    assets.Perm kmod.resources ∧
      List.Forall₂ (Rt.Brings skinsFile.bytes skins) (skins.resources.filter Rt.Kept) assets ∧
        ∃ offset r, readMod plainBuffers (fun _ => (none : Option Unit)) []
          (Reader.opened skinsFile.bytes) = .ok (some (shownMod (fun _ => none) [] skinsFile.bytes
            skins offset), r) := by
  obtain ⟨mod, hmod⟩ : ∃ mod, Rt.load skins = .ok mod := ⟨_, rfl⟩
  have hgame : (Rt.frostyLoadMod { content := skinsFile.bytes }).map Prod.fst = .ok mod :=
    (Rt.frostyLoadMod_eq skinsFile.reads).trans hmod
  obtain ⟨loader', hload⟩ : ∃ loader', ({} : LoadedMods).loadMod noVanilla []
      (.loaded (Rt.openedMod (fun _ => 0) (fun _ => .error .decompressionFailed) skinsFile.bytes
        mod)) = .ok loader' := ⟨_, rfl⟩
  obtain ⟨hlauncher, hloader⟩ := data_agree plainBuffers (fun _ => (none : Option Unit)) []
    skinsFile.reads (skinsFile.complete skinsFile_length)
  obtain ⟨offset, r, -, hread, -⟩ := hlauncher (List.cons_ne_nil _ _)
  obtain ⟨kmod, assets, -, -, hperm, hbrings⟩ :=
    hloader hgame (Rt.openedMod_backed _ _ _ mod) hload
  exact ⟨kmod, assets, hperm, hbrings, offset, r, hread⟩

end Kyber.Collection.ModReader
