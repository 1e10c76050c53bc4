import Kyber.Proofs.ShaderReferences
import Mathlib.Data.List.Nodup

/-!
# A depot without mods

When no mod has blocks for a depot, the hook writes the blocks that it has read. What
is left to show is that the relocation table has the positions of the pointers: the
records' data offsets and the entries of the directory, each once. The records are
behind the directory and one behind the other, so no position is listed twice.
-/

namespace Kyber.ModLoader

open Kyber.Lib

/-! ## The relocation table -/

/-- The positions of the table, as numbers. -/
def relocPositions : Nat → Nat → List (ShaderBlockResource UInt32) → List Nat
  | _, _, [] => []
  | i, p, r :: rs => (r.start p + 8) :: i * 16 ::
      relocPositions (i + 1) (p + (r.bytes p).length) rs

variable (rs : List (ShaderBlockResource UInt32))

theorem relocs_eq_map (i p : Nat) : relocs i p rs = (relocPositions i p rs).map UInt32.ofNat := by
  induction rs generalizing i p with
  | nil => rfl
  | cons r rs ih => rw [relocs, relocPositions, List.map_cons, List.map_cons, ih]

theorem relocPositions_perm (i p : Nat) : (relocPositions i p rs).Perm
    ((starts p rs).map (· + 8) ++ (List.range' i rs.length).map (· * 16)) := by
  induction rs generalizing i p with
  | nil => exact .refl _
  | cons r rs ih =>
      rw [relocPositions, starts, List.map_cons, List.length_cons, List.range'_succ, List.map_cons,
        List.cons_append]
      refine .cons _ (.trans (.cons _ (ih _ _)) ?_)
      exact List.perm_middle.symm

/-- A record is inside its block. -/
theorem record_start_lt (r : ShaderBlockResource UInt32) (p : Nat) :
    r.start p + 8 < p + (r.bytes p).length := by
  rw [ShaderBlockResource.start, ShaderBlockResource.bytes, List.length_append,
    ShaderBlockResource.record, List.length_append, List.length_append, length_leBytes,
    length_leBytes]
  omega

theorem mem_starts {p x : Nat} (h : x ∈ starts p rs) :
    p ≤ x ∧ x + 8 < p + (blocksBytes p rs).length := by
  induction rs generalizing p with
  | nil => cases h
  | cons r rs ih =>
      have hstart := record_start_lt r p
      rw [blocksBytes, List.length_append]
      rcases List.mem_cons.mp h with rfl | h
      · exact ⟨Nat.le_add_right _ _, by omega⟩
      · have := ih h
        omega

theorem starts_pairwise (p : Nat) : (starts p rs).Pairwise (· < ·) := by
  induction rs generalizing p with
  | nil => exact .nil
  | cons r rs ih =>
      refine List.pairwise_cons.mpr ⟨fun x hx => ?_, ih _⟩
      have hstart := record_start_lt r p
      have := (mem_starts rs hx).1
      omega

/-- The positions behind the directory and those in it. -/
theorem relocPositions_nodup {p : Nat} (hp : 16 * rs.length ≤ p) :
    (relocPositions 0 p rs).Nodup := by
  rw [(relocPositions_perm rs 0 p).nodup_iff, List.nodup_append]
  refine ⟨?_, ?_, ?_⟩
  · have hne := (starts_pairwise rs p).imp fun {a b} h => Nat.ne_of_lt h
    exact List.Nodup.map (fun a b h => Nat.add_right_cancel h) hne
  · refine List.Nodup.map (fun a b h => ?_) List.nodup_range'
    exact Nat.eq_of_mul_eq_mul_right (by decide) h
  · intro a ha b hb heq
    obtain ⟨x, hx, rfl⟩ := List.mem_map.mp ha
    obtain ⟨j, hj, rfl⟩ := List.mem_map.mp hb
    have := (mem_starts rs hx).1
    have := List.mem_range'_1.mp hj
    omega

/-! ## The blocks without mods -/

section

variable {rs} {blocks : Blocks}

/-- The references are all to blocks of the depot, and the depot has a 32-bit size. -/
structure WellFormedDepot (rs : List (ShaderBlockResource UInt32)) : Prop where
  references : ∀ r ∈ rs, ∀ index ∈ r.block.references, index.toNat < rs.length
  fits : (depotBytes rs).length < 2 ^ 32

theorem WellFormedDepot.length_lt (h : WellFormedDepot rs) : rs.length < 2 ^ 28 := by
  have hfits := h.fits
  rw [length_depotBytes] at hfits
  omega

theorem WellFormedDepot.refersInside (h : WellFormedDepot rs) : RefersInside rs := by
  intro r hr index hindex
  have hlt := h.references r hr index hindex
  have hlength := h.length_lt
  exact ⟨hlt, by omega⟩

/-- Without blocks of mods the depot's own are written as they were read. -/
theorem After.written_all (hlength : rs.length ≤ 2 ^ 32) (hfresh : ∀ r ∈ rs, r.Fresh)
    (h : After {} rs rs.length blocks) : blocks.entries.mapM blocks.written = .ok rs := by
  have hnone : ∀ j, replacement {} rs j = none := by
    intro j
    rw [replacement, Option.bind_eq_none_iff]
    exact fun r _ => rfl
  refine Lib.mapM_ok_iff.mpr (List.forall₂_iff_get.mpr ⟨h.entries_length, ?_⟩)
  intro j hj hj'
  have hentry := h.entries j hj'
  rw [List.getElem?_eq_getElem hj, refAfter, hnone] at hentry
  have hvanilla : blocks.entries.get ⟨j, hj⟩ = .vanilla j := by
    have := Option.some.inj hentry
    rw [List.get_eq_getElem, this]
    split <;> rfl
  have hr : rs[j]? = some rs[j] := List.getElem?_eq_getElem hj'
  have hindex : rs[j].index = 0 := (hfresh _ (List.getElem_mem hj')).1
  rw [hvanilla, (written_vanilla_iff h hlength hr (hnone j)).mpr fun _ _ => .inl (hnone _),
    List.get_eq_getElem, ← hindex]

theorem collect_eq_empty {name : ByteString} {modResources : List ModResource}
    (h : ∀ resource ∈ modResources, ModifiedShaderBlockDepot.collects name resource = false) :
    ModifiedShaderBlockDepot.collect name modResources = .ok {} := by
  have hnil : modResources.filter (ModifiedShaderBlockDepot.collects name) = [] := by
    refine List.filter_eq_nil_iff.mpr fun resource hresource => ?_
    rw [h resource hresource]
    decide
  rw [ModifiedShaderBlockDepot.collect, hnil]
  rfl

end

/-! ## The hook -/

section

variable {rs}

/-- What the directory of a depot that has been written says. -/
theorem readDirectory_depotBytes (hfits : (depotBytes rs).length < 2 ^ 32) :
    ∃ s', (repeatM readDirectoryEntry (UInt32.ofNat rs.length).toNat).run (.ofBytes (depotBytes rs))
      = .ok (directoryOf (starts (16 * rs.length) rs) rs, s') := by
  have hlength : (directoryOf (starts (16 * rs.length) rs) rs).length = rs.length := by
    rw [directoryOf, List.length_map, List.length_zip, length_starts, Nat.min_self]
  have hreads := readDirectory_reads (starts (16 * rs.length) rs) rs
  rw [hlength] at hreads
  rw [length_depotBytes] at hfits
  have hcount : rs.length < 2 ^ 32 := by omega
  rw [UInt32.toNat_ofNat_of_lt' hcount]
  exact ⟨_, hreads (depotBytes rs) (.ofBytes (depotBytes rs)) (bodyBytes rs) rfl rfl⟩

/-- Every position in a depot that fits is a 32-bit number. -/
theorem relocPositions_lt (hfits : (depotBytes rs).length < 2 ^ 32) :
    ∀ x ∈ relocPositions 0 (16 * rs.length) rs, x < 2 ^ 32 := by
  intro x hx
  rw [length_depotBytes, bodyBytes, List.length_append] at hfits
  rw [(relocPositions_perm rs 0 _).mem_iff, List.mem_append] at hx
  rcases hx with hx | hx
  · obtain ⟨y, hy, rfl⟩ := List.mem_map.mp hx
    have := (mem_starts rs hy).2
    omega
  · obtain ⟨j, hj, rfl⟩ := List.mem_map.mp hx
    have := List.mem_range'_1.mp hj
    omega

/-- Where the pointers of a depot with this directory are: behind the hash of each
record, and at the start of each entry of the directory. -/
def pointerFields (directory : List (UInt64 × Option BlockType)) : List Nat :=
  directory.map (·.1.toNat + 8) ++ (List.range directory.length).map (· * 16)

theorem relocs_toNat (hfits : (depotBytes rs).length < 2 ^ 32) :
    (relocs 0 (16 * rs.length) rs).map UInt32.toNat = relocPositions 0 (16 * rs.length) rs := by
  rw [relocs_eq_map, List.map_map]
  refine (List.map_congr_left fun x hx => ?_).trans (List.map_id _)
  exact UInt32.toNat_ofNat_of_lt' (relocPositions_lt hfits x hx)

theorem pointerFields_directoryOf (hfits : (depotBytes rs).length < 2 ^ 32) :
    pointerFields (directoryOf (starts (16 * rs.length) rs) rs) =
      (starts (16 * rs.length) rs).map (· + 8) ++ (List.range' 0 rs.length).map (· * 16) := by
  have hstarts : ∀ x ∈ starts (16 * rs.length) rs, (UInt64.ofNat x).toNat = x := by
    intro x hx
    have := (mem_starts rs hx).2
    rw [length_depotBytes, bodyBytes, List.length_append] at hfits
    rw [UInt64.toNat_ofNat', Nat.mod_eq_of_lt (by omega)]
  have hlength : (directoryOf (starts (16 * rs.length) rs) rs).length = rs.length := by
    rw [directoryOf, List.length_map, List.length_zip, length_starts, Nat.min_self]
  rw [pointerFields, hlength, List.range_eq_range']
  congr 1
  rw [directoryOf, List.map_map]
  have hfst : ((starts (16 * rs.length) rs).zip rs).map Prod.fst = starts (16 * rs.length) rs :=
    List.map_fst_zip (Nat.le_of_eq (length_starts rs _))
  rw [← List.map_congr_left fun x hx => congrArg (· + 8) (hstarts x hx)]
  conv_rhs => rw [← hfst, List.map_map]
  rfl

/-- Without mods a depot is written as it was read, with its size, and with a
relocation table that has each pointer once and nothing else. -/
theorem depot_lossless {modResources : List ModResource} {name : ByteString}
    {sbResourceCount : UInt32} {bytes : List UInt8} {rs : List (ShaderBlockResource UInt32)}
    (hread : readDepot sbResourceCount bytes = .ok rs) (hwf : WellFormedDepot rs)
    (hno : ∀ resource ∈ modResources,
      ModifiedShaderBlockDepot.collects name resource = false) :
    ∃ image, shaderBlockDepotLoaderFixupTurboBulk modResources name sbResourceCount bytes
        = .ok image ∧
      readDepot image.sbResourceCount image.bytes = .ok rs ∧
      image.fullSize.toNat = image.bytes.length ∧
      ∃ directory s', (repeatM readDirectoryEntry image.sbResourceCount.toNat).run
          (.ofBytes image.bytes) = .ok (directory, s') ∧
        (image.relocTable.map UInt32.toNat).Perm (pointerFields directory) ∧
        image.relocTable.Nodup := by
  have hfits := hwf.fits
  have hlength := hwf.length_lt
  have hfresh := (readDepot_fresh hread).2
  obtain ⟨blocks, s', hrun, hafter⟩ := substituteBlocks_ok {} hwf.refersInside hread
  have hwritten := hafter.written_all (by omega) hfresh
  obtain ⟨s, hwrite, hbuf⟩ := writeDepot_run hfits
  obtain ⟨s₁, hdirectory⟩ := readDirectory_depotBytes hfits
  refine ⟨{
      bytes := depotBytes rs
      fullSize := UInt32.ofNat (depotBytes rs).length
      relocTable := relocs 0 (16 * rs.length) rs
      relocTableCount := UInt32.ofNat ((relocs 0 (16 * rs.length) rs).length * 4)
      sbResourceCount := UInt32.ofNat rs.length }, ?_, readDepot_depotBytes hfresh hfits,
    UInt32.toNat_ofNat_of_lt' hfits, _, s₁, hdirectory, ?_, ?_⟩
  · simp only [shaderBlockDepotLoaderFixupTurboBulk, collect_eq_empty hno, hrun, hwritten, hwrite,
      hbuf, List.take_length, Bind.bind, Except.bind, Pure.pure, Except.pure]
  · rw [relocs_toNat hfits, pointerFields_directoryOf hfits]
    exact relocPositions_perm rs 0 _
  · refine List.Nodup.of_map UInt32.toNat ?_
    rw [relocs_toNat hfits]
    exact relocPositions_nodup rs (Nat.le_refl _)

/-- A block with a texture, which is stored with the size 1. -/
def textureBlock : ShaderBlockResource UInt32 where
  hash := 9
  block := .meshParamDb (Vector.replicate 16 1) 2
    [{ nameHash := 0x30002, typeHash := iTexture, used := 1, value := List.replicate 16 4,
       parameterHash := 0x0002000000000005 }]

/-- A depot of three blocks, and a mod for another depot. -/
theorem depot_lossless_texture :
    let rs := [referringBlock 2, textureBlock, plainBlock]
    ∃ image, shaderBlockDepotLoaderFixupTurboBulk [shaderModResource] [0x65] 3 (depotBytes rs)
        = .ok image ∧ readDepot image.sbResourceCount image.bytes = .ok rs := by
  intro rs
  have hread : readDepot 3 (depotBytes rs) = .ok rs := by decide +kernel
  have hlength : (depotBytes rs).length = 192 := by decide +kernel
  have hwf : WellFormedDepot rs := by
    refine ⟨fun r hr index hindex => ?_, by omega⟩
    rcases List.mem_cons.mp hr with rfl | hr
    · rw [List.mem_singleton.mp hindex]
      decide
    · rcases List.mem_pair.mp hr with rfl | rfl <;> cases hindex
  have hno : ∀ resource ∈ [shaderModResource],
      ModifiedShaderBlockDepot.collects [0x65] resource = false := by decide
  obtain ⟨image, himage, hsame, -⟩ := depot_lossless hread hwf hno
  exact ⟨image, himage, hsame⟩

end

end Kyber.ModLoader
