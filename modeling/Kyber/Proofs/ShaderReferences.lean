import Kyber.Proofs.ShaderCodec
import Kyber.Lib.Writes
import Mathlib.Data.List.Forall2
import Mathlib.Data.Nat.Find

/-!
# References between shader blocks

The hook goes through the blocks of a depot in their order. It makes pointers of the
references of a block when it comes to the block, and so at a time when the blocks
before it have been replaced and those behind it have not. What has become of the
blocks and the pointers after `i` rounds is `After`; the pointer to the block `j` that
is made in round `i` is `refAfter i j`.

From the last round it is read off what index is written for a reference: that of the
block if no mod has replaced it; that of the last block with its hash if a mod has
replaced it and it is before the referring block; and none if it is behind it, since
the block that the pointer leads to has been deleted.
-/

namespace Kyber.ModLoader

open Kyber.Lib

namespace ShaderBlock

variable {ρ τ : Type}

/-- The block with other references. -/
def map (f : ρ → τ) : ShaderBlock ρ → ShaderBlock τ
  | .entry resources => .entry (resources.map f)
  | .persistentParamDb parameters => .persistentParamDb parameters
  | .staticParamDb resources => .staticParamDb (resources.map f)
  | .meshParamDb guid lodIndex parameters => .meshParamDb guid lodIndex parameters
  | .meshVariation refs => .meshVariation refs

theorem list_mapM_ok_iff {f : ρ → Except Fault τ} {g : ρ → τ} {as : List ρ} :
    as.mapM f = .ok (as.map g) ↔ ∀ a ∈ as, f a = .ok (g a) := by
  rw [Lib.mapM_ok_iff, List.forall₂_map_right_iff, List.forall₂_same]

/-- The references are found one by one. -/
theorem mapM_ok_iff {f : ρ → Except Fault τ} {g : ρ → τ} {block : ShaderBlock ρ} :
    block.mapM f = .ok (block.map g) ↔ ∀ ref ∈ block.references, f ref = .ok (g ref) := by
  cases block with
  | entry resources =>
      rw [references, ← list_mapM_ok_iff, mapM, map]
      constructor
      · intro h
        obtain ⟨found, hfound, heq⟩ := bind_eq_ok h
        cases heq
        exact hfound
      · intro h
        rw [h]
        rfl
  | staticParamDb resources =>
      rw [references, ← list_mapM_ok_iff, mapM, map]
      constructor
      · intro h
        obtain ⟨found, hfound, heq⟩ := bind_eq_ok h
        cases heq
        exact hfound
      · intro h
        rw [h]
        rfl
  | persistentParamDb parameters => simp [mapM, map, references, Pure.pure, Except.pure]
  | meshParamDb guid lodIndex parameters => simp [mapM, map, references, Pure.pure, Except.pure]
  | meshVariation refs => simp [mapM, map, references, Pure.pure, Except.pure]

/-- What is found for the references is what they are mapped to. -/
theorem eq_map_of_mapM {f : ρ → Except Fault τ} {g : ρ → τ} {block : ShaderBlock ρ}
    {block' : ShaderBlock τ} (h : block.mapM f = .ok block') (hf : ∀ x y, f x = .ok y → y = g x) :
    block' = block.map g := by
  have hlist : ∀ {as : List ρ} {bs : List τ}, as.mapM f = .ok bs → bs = as.map g := by
    intro as bs h
    have hall := (Lib.mapM_ok_iff.mp h).imp fun a b hab => (hf a b hab).symm
    have hmap : List.Forall₂ Eq (as.map g) bs := List.forall₂_map_left_iff.mpr hall
    rw [List.forall₂_eq_eq_eq] at hmap
    exact hmap.symm
  cases block with
  | entry resources =>
      obtain ⟨found, hfound, heq⟩ := bind_eq_ok h
      cases heq
      rw [hlist hfound]
      rfl
  | staticParamDb resources =>
      obtain ⟨found, hfound, heq⟩ := bind_eq_ok h
      cases heq
      rw [hlist hfound]
      rfl
  | persistentParamDb parameters =>
      cases h
      rfl
  | meshParamDb guid lodIndex parameters =>
      cases h
      rfl
  | meshVariation refs =>
      cases h
      rfl

end ShaderBlock

/-! ## The loop over the blocks -/

section

variable (depot : ModifiedShaderBlockDepot) (rs : List (ShaderBlockResource UInt32))

/-- The block of the mods that replaces the block `j`. -/
def replacement (j : Nat) : Option Nat := rs[j]?.bind fun r => depot.getResource r.hash

/-- The pointer at `j` after `i` rounds. -/
def refAfter (i j : Nat) : BlockRef :=
  if j < i then ((replacement depot rs j).map BlockRef.modified).getD (.vanilla j) else .vanilla j

/-- The block `j` as it is in memory. -/
def linked (j : Nat) (r : ShaderBlockResource UInt32) : ShaderBlockResource BlockRef where
  index := UInt32.ofNat j
  hash := r.hash
  block := r.block.map fun index => refAfter depot rs j index.toNat

/-- The blocks after `i` rounds. -/
structure After (i : Nat) (blocks : Blocks) : Prop where
  entries_length : blocks.entries.length = rs.length
  entries : ∀ j < rs.length, blocks.entries[j]? = some (refAfter depot rs i j)
  vanilla_length : blocks.vanilla.length = rs.length
  vanilla : ∀ j r, rs[j]? = some r → blocks.vanilla[j]? =
    some (if j < i ∧ replacement depot rs j = none then some (linked depot rs j r) else none)
  references : ∀ j r, j < i → rs[j]? = some r →
    ∀ index ∈ r.block.references, index.toNat < rs.length
  modified_length : blocks.modified.length = depot.resources.length
  modified : ∀ j k, j < i → replacement depot rs j = some k →
    (∀ j', j < j' → j' < i → replacement depot rs j' ≠ some k) →
    (blocks.modified[k]?).map (·.index) = some (UInt32.ofNat j)

end

variable {depot : ModifiedShaderBlockDepot} {rs : List (ShaderBlockResource UInt32)} {i : Nat}
  {blocks blocks' : Blocks}

theorem after_construct (depot : ModifiedShaderBlockDepot)
    (rs : List (ShaderBlockResource UInt32)) :
    After depot rs 0 (.construct rs.length depot) where
  entries_length := by simp [Blocks.construct]
  entries j hj := by simp [Blocks.construct, refAfter, hj]
  vanilla_length := by simp [Blocks.construct]
  vanilla j r hr := by
    obtain ⟨hj, -⟩ := List.getElem?_eq_some_iff.mp hr
    simp [Blocks.construct, hj]
  references j r hj := absurd hj (Nat.not_lt_zero j)
  modified_length := by simp [Blocks.construct]
  modified j k hj := absurd hj (Nat.not_lt_zero j)

/-- The pointers change only at `i`. -/
theorem refAfter_succ (i j : Nat) : refAfter depot rs (i + 1) j =
    if j = i then ((replacement depot rs i).map BlockRef.modified).getD (.vanilla i)
    else refAfter depot rs i j := by
  unfold refAfter
  split
  · next hj =>
      split
      · next heq => rw [heq]
      · next hne => rw [if_pos (by omega)]
  · next hj => rw [if_neg (by omega), if_neg (by omega)]

theorem After.entryAt (h : After depot rs i blocks) {index : UInt32} {ref : BlockRef}
    (href : Blocks.entryAt blocks.entries index = .ok ref) :
    index.toNat < rs.length ∧ ref = refAfter depot rs i index.toNat := by
  unfold Blocks.entryAt at href
  split at href
  · cases hentry : blocks.entries[index.toNat]? with
    | none =>
        rw [hentry] at href
        cases href
    | some entry =>
        rw [hentry] at href
        cases href
        obtain ⟨hlt, -⟩ := List.getElem?_eq_some_iff.mp hentry
        rw [h.entries_length] at hlt
        rw [h.entries _ hlt] at hentry
        exact ⟨hlt, (Option.some.inj hentry).symm⟩
  · cases href

/-- The references of the block `i` become the pointers of round `i`. -/
theorem After.link (h : After depot rs i blocks) {r : ShaderBlockResource UInt32}
    {block : ShaderBlock BlockRef}
    (hlink : r.block.mapM (Blocks.entryAt blocks.entries) = .ok block) :
    (block = r.block.map fun index => refAfter depot rs i index.toNat) ∧
      ∀ index ∈ r.block.references, index.toNat < rs.length := by
  have hblock := ShaderBlock.eq_map_of_mapM hlink fun index ref href => (h.entryAt href).2
  rw [hblock] at hlink
  exact ⟨hblock, fun index hindex =>
    (h.entryAt (ShaderBlock.mapM_ok_iff.mp hlink index hindex)).1⟩

/-- The references of one more block. -/
theorem After.references_succ (h : After depot rs i blocks) {r : ShaderBlockResource UInt32}
    (hr : rs[i]? = some r) (hrefs : ∀ index ∈ r.block.references, index.toNat < rs.length) :
    ∀ j rj, j < i + 1 → rs[j]? = some rj →
      ∀ index ∈ rj.block.references, index.toNat < rs.length := by
  intro j rj hj hrj
  by_cases heq : j = i
  · subst heq
    cases hr.symm.trans hrj
    exact hrefs
  · exact h.references j rj (by omega) hrj

theorem replacement_lt {j k : Nat} (h : replacement depot rs j = some k) :
    k < depot.resources.length := by
  obtain ⟨r, -, hk⟩ := Option.bind_eq_some_iff.mp h
  rw [ModifiedShaderBlockDepot.getResource, List.findIdx?_eq_some_iff_getElem] at hk
  exact hk.1

/-- A round that puts the block of a mod in the place of the block `i`. -/
theorem After.replace (h : After depot rs i blocks) {r : ShaderBlockResource UInt32}
    (hr : rs[i]? = some r) (hrefs : ∀ index ∈ r.block.references, index.toNat < rs.length)
    {existing : Nat} (hreplacement : replacement depot rs i = some existing) :
    After depot rs (i + 1)
      { blocks with
        entries := blocks.entries.set i (.modified existing)
        modified := blocks.modified.modify existing ({ · with index := UInt32.ofNat i }) } := by
  obtain ⟨hi, -⟩ := List.getElem?_eq_some_iff.mp hr
  constructor
  case entries_length =>
    rw [List.length_set]
    exact h.entries_length
  case entries =>
    intro j hj
    rw [List.getElem?_set, refAfter_succ, h.entries_length, if_pos hi, h.entries j hj]
    by_cases heq : j = i
    · rw [if_pos heq.symm, if_pos heq, hreplacement]
      rfl
    · rw [if_neg (Ne.symm heq), if_neg heq]
  case vanilla_length => exact h.vanilla_length
  case vanilla =>
    intro j rj hrj
    rw [h.vanilla j rj hrj]
    refine congrArg some (if_congr ?_ rfl rfl)
    refine ⟨fun hplaced => ⟨by omega, hplaced.2⟩, fun hplaced => ⟨?_, hplaced.2⟩⟩
    have hne : j ≠ i := by
      intro heq
      rw [heq, hreplacement] at hplaced
      cases hplaced.2
    omega
  case references => exact h.references_succ hr hrefs
  case modified_length =>
    rw [List.length_modify]
    exact h.modified_length
  case modified =>
    intro j k hj hk hlast
    rw [List.getElem?_modify]
    by_cases heq : j = i
    · subst heq
      obtain rfl : existing = k := Option.some.inj (hreplacement.symm.trans hk)
      have hlt := replacement_lt hk
      rw [← h.modified_length] at hlt
      rw [List.getElem?_eq_getElem hlt]
      simp
    · have hne : existing ≠ k := by
        intro hsame
        exact hlast i (by omega) (by omega) (hsame ▸ hreplacement)
      have hold := h.modified j k (by omega) hk fun j' hlt hlt' => hlast j' hlt (by omega)
      simpa [hne] using hold

/-- A round that keeps the block `i`. -/
theorem After.keep (h : After depot rs i blocks) {r : ShaderBlockResource UInt32}
    (hr : rs[i]? = some r) (hrefs : ∀ index ∈ r.block.references, index.toNat < rs.length)
    (hreplacement : replacement depot rs i = none) :
    After depot rs (i + 1)
      { blocks with vanilla := blocks.vanilla.set i (some (linked depot rs i r)) } := by
  obtain ⟨hi, -⟩ := List.getElem?_eq_some_iff.mp hr
  constructor
  case entries_length => exact h.entries_length
  case entries =>
    intro j hj
    rw [refAfter_succ, h.entries j hj]
    split
    · next heq =>
        rw [heq, hreplacement]
        simp [refAfter]
    · rfl
  case vanilla_length =>
    rw [List.length_set]
    exact h.vanilla_length
  case vanilla =>
    intro j rj hrj
    rw [List.getElem?_set, h.vanilla_length, if_pos hi, h.vanilla j rj hrj]
    by_cases heq : i = j
    · subst heq
      obtain rfl : r = rj := Option.some.inj (hr.symm.trans hrj)
      rw [if_pos rfl, if_pos ⟨by omega, hreplacement⟩]
    · rw [if_neg heq]
      refine congrArg some (if_congr ?_ rfl rfl)
      exact and_congr_left fun _ => by omega
  case references => exact h.references_succ hr hrefs
  case modified_length => exact h.modified_length
  case modified =>
    intro j k hj hk hlast
    have hne : j ≠ i := by
      intro heq
      rw [heq, hreplacement] at hk
      cases hk
    exact h.modified j k (by omega) hk fun j' hlt hlt' => hlast j' hlt (by omega)

/-- One round. -/
theorem After.place (h : After depot rs i blocks) {r : ShaderBlockResource UInt32}
    (hr : rs[i]? = some r) (hplace : blocks.place depot i r = .ok blocks') :
    After depot rs (i + 1) blocks' := by
  obtain ⟨block, hlink, hplace⟩ := bind_eq_ok hplace
  obtain ⟨hblock, hrefs⟩ := h.link hlink
  have hreplacement : replacement depot rs i = depot.getResource r.hash := by
    rw [replacement, hr, Option.bind_some]
  cases hget : depot.getResource r.hash with
  | some existing =>
      rw [hget] at hplace
      cases hplace
      exact h.replace hr hrefs (hreplacement.trans hget)
  | none =>
      rw [hget] at hplace
      cases hplace
      rw [hblock]
      exact h.keep hr hrefs (hreplacement.trans hget)

/-- The loop without the reading. -/
def placeAll (depot : ModifiedShaderBlockDepot) :
    Nat → List (ShaderBlockResource UInt32) → Blocks → Except Fault Blocks
  | _, [], blocks => return blocks
  | i, r :: rs, blocks => do placeAll depot (i + 1) rs (← blocks.place depot i r)

/-- Reading and placing one block at a time is reading all and placing all. -/
theorem readBlocks_ok_iff {directory : List (UInt64 × Option BlockType)} {s s' : ByteBuffer} :
    Blocks.readBlocks depot i directory blocks s = .ok (blocks', s') ↔
      ∃ rs, directory.mapM readRecord s = .ok (rs, s') ∧ placeAll depot i rs blocks = .ok blocks' := by
  induction directory generalizing i blocks s with
  | nil =>
      constructor
      · intro h
        cases h
        exact ⟨[], rfl, rfl⟩
      · rintro ⟨rs, hrs, hplace⟩
        cases hrs
        cases hplace
        rfl
  | cons entry directory ih =>
      rw [Blocks.readBlocks, List.mapM_cons, BufM.bind_ok_iff]
      constructor
      · rintro ⟨r, s₁, hr, h⟩
        obtain ⟨blocks₁, s₂, hplace, h⟩ := BufM.bind_ok_iff.mp h
        obtain ⟨hplaced, rfl⟩ := BufM.lift_ok_iff.mp hplace
        obtain ⟨rs, hrs, hall⟩ := ih.mp h
        refine ⟨r :: rs, BufM.bind_ok_iff.mpr ⟨r, s₁, hr, ?_⟩, ?_⟩
        · exact BufM.bind_ok_iff.mpr ⟨rs, s', hrs, rfl⟩
        · rw [placeAll, hplaced]
          exact hall
      · rintro ⟨rs, h, hall⟩
        obtain ⟨r, s₁, hr, h⟩ := BufM.bind_ok_iff.mp h
        obtain ⟨rs', s₂, hrs, heq⟩ := BufM.bind_ok_iff.mp h
        cases heq
        obtain ⟨blocks₁, hplace, hall⟩ := bind_eq_ok hall
        refine ⟨r, s₁, hr, BufM.bind_ok_iff.mpr ⟨blocks₁, s₁, ?_, ih.mpr ⟨rs', hrs, hall⟩⟩⟩
        exact BufM.lift_ok_iff.mpr ⟨hplace, rfl⟩

theorem after_placeAll {pre rest : List (ShaderBlockResource UInt32)} (hrs : rs = pre ++ rest)
    (h : After depot rs pre.length blocks)
    (hplace : placeAll depot pre.length rest blocks = .ok blocks') :
    After depot rs rs.length blocks' := by
  induction rest generalizing pre blocks with
  | nil =>
      cases hplace
      rw [hrs, List.append_nil] at h ⊢
      exact h
  | cons r rest ih =>
      obtain ⟨blocks₁, hfirst, hrest⟩ := bind_eq_ok hplace
      have hr : rs[pre.length]? = some r := by
        rw [hrs, List.getElem?_append_right (Nat.le_refl _), Nat.sub_self]
        rfl
      have hrs' : rs = (pre ++ [r]) ++ rest := by rw [hrs, List.append_assoc, List.singleton_append]
      have hlength : (pre ++ [r]).length = pre.length + 1 := List.length_append
      exact ih hrs' (hlength ▸ h.place hr hfirst) (hlength ▸ hrest)

/-- The references of a depot are to its blocks, by indices that are not negative. -/
def RefersInside (rs : List (ShaderBlockResource UInt32)) : Prop :=
  ∀ r ∈ rs, ∀ index ∈ r.block.references, index.toNat < rs.length ∧ index.toNat < 2 ^ 31

/-- Then a round does not fail. -/
theorem After.place_ok (hinside : RefersInside rs) (h : After depot rs i blocks)
    {r : ShaderBlockResource UInt32} (hr : r ∈ rs) :
    ∃ blocks', blocks.place depot i r = .ok blocks' := by
  have hlink : r.block.mapM (Blocks.entryAt blocks.entries) =
      .ok (r.block.map fun index => refAfter depot rs i index.toNat) := by
    refine ShaderBlock.mapM_ok_iff.mpr fun index hindex => ?_
    obtain ⟨hlt, hpos⟩ := hinside r hr index hindex
    rw [Blocks.entryAt, if_pos hpos, h.entries _ hlt]
    rfl
  unfold Blocks.place
  rw [hlink]
  cases hget : depot.getResource r.hash with
  | some existing => exact ⟨_, rfl⟩
  | none => exact ⟨_, rfl⟩

theorem placeAll_ok (hinside : RefersInside rs) {pre rest : List (ShaderBlockResource UInt32)}
    (hrs : rs = pre ++ rest) (h : After depot rs pre.length blocks) :
    ∃ blocks', placeAll depot pre.length rest blocks = .ok blocks' := by
  induction rest generalizing pre blocks with
  | nil => exact ⟨blocks, rfl⟩
  | cons r rest ih =>
      have hr : rs[pre.length]? = some r := by
        rw [hrs, List.getElem?_append_right (Nat.le_refl _), Nat.sub_self]
        rfl
      obtain ⟨blocks₁, hfirst⟩ := h.place_ok hinside (List.mem_of_getElem? hr)
      have hrs' : rs = (pre ++ [r]) ++ rest := by rw [hrs, List.append_assoc, List.singleton_append]
      have hlength : (pre ++ [r]).length = pre.length + 1 := List.length_append
      obtain ⟨blocks', hrest⟩ := ih hrs' (hlength ▸ h.place hr hfirst)
      refine ⟨blocks', ?_⟩
      rw [placeAll, hfirst]
      exact hlength ▸ hrest

/-! ## What is written for a reference -/

/-- A reference of the block `i` to the block `j` keeps its index: no mod replaces
the block, or it is before `i` and no block behind it has the same replacement. -/
def KeepsIndex (depot : ModifiedShaderBlockDepot) (rs : List (ShaderBlockResource UInt32))
    (i j : Nat) : Prop :=
  replacement depot rs j = none ∨
    j < i ∧ ∀ k, j < k → k < rs.length → replacement depot rs k ≠ replacement depot rs j

/-- The last block that a block of the mods replaces. -/
theorem exists_last {j k : Nat} (hj : j < rs.length) (hk : replacement depot rs j = some k) :
    ∃ last, j ≤ last ∧ last < rs.length ∧ replacement depot rs last = some k ∧
      ∀ j', last < j' → j' < rs.length → replacement depot rs j' ≠ some k := by
  let P := fun j' => replacement depot rs j' = some k
  refine ⟨Nat.findGreatest P (rs.length - 1), ?_, ?_, ?_, ?_⟩
  · exact Nat.le_findGreatest (by omega) hk
  · have := Nat.findGreatest_le (P := P) (rs.length - 1)
    omega
  · exact Nat.findGreatest_spec (P := P) (m := j) (by omega) hk
  · intro j' hlt hlt'
    exact Nat.findGreatest_is_greatest (P := P) hlt (by omega)

theorem indexOf_refAfter (h : After depot rs rs.length blocks) (hlength : rs.length ≤ 2 ^ 32)
    (hi : replacement depot rs i = none) {j : Nat} (hj : j < rs.length) :
    blocks.indexOf (refAfter depot rs i j) = .ok (UInt32.ofNat j) ↔ KeepsIndex depot rs i j := by
  have hrj : rs[j]? = some rs[j] := List.getElem?_eq_getElem hj
  cases hrep : replacement depot rs j with
  | none =>
      have href : refAfter depot rs i j = .vanilla j := by
        rw [refAfter, hrep]
        split <;> rfl
      have hblock := h.vanilla j _ hrj
      rw [if_pos ⟨hj, hrep⟩] at hblock
      simp only [KeepsIndex, hrep, true_or, iff_true]
      rw [href, Blocks.indexOf, Blocks.follow, hblock]
      rfl
  | some k =>
      by_cases hji : j < i
      · have href : refAfter depot rs i j = .modified k := by
          rw [refAfter, if_pos hji, hrep]
          rfl
        obtain ⟨last, hle, hlt, hlast, hgreatest⟩ := exists_last hj hrep
        have hindex : blocks.indexOf (.modified k) = .ok (UInt32.ofNat last) := by
          obtain ⟨r, hr, hri⟩ := Option.map_eq_some_iff.mp (h.modified last k hlt hlast hgreatest)
          rw [Blocks.indexOf, Blocks.follow, hr, ← hri]
          rfl
        rw [href, hindex, Except.ok.injEq, ofNat_inj_of_lt (by omega) (by omega)]
        constructor
        · rintro rfl
          refine .inr ⟨hji, fun k' hk' hlt' => ?_⟩
          rw [hrep]
          exact hgreatest k' hk' hlt'
        · rintro (hnone | ⟨-, hno⟩)
          · rw [hrep] at hnone
            cases hnone
          · by_contra hne
            exact hno last (by omega) hlt (hlast.trans hrep.symm)
      · have hne : j ≠ i := by
          rintro rfl
          rw [hi] at hrep
          cases hrep
        have href : refAfter depot rs i j = .vanilla j := by rw [refAfter, if_neg hji]
        have hblock := h.vanilla j _ hrj
        rw [if_neg (by rw [hrep]; simp)] at hblock
        constructor
        · intro hindex
          rw [href, Blocks.indexOf, Blocks.follow, hblock] at hindex
          cases hindex
        · rintro (hnone | ⟨hlt, -⟩)
          · rw [hrep] at hnone
            cases hnone
          · exact absurd hlt hji

theorem ShaderBlock.mapM_map {ρ τ υ : Type} (f : τ → Except Fault υ) (g : ρ → τ)
    (block : ShaderBlock ρ) : (block.map g).mapM f = block.mapM (f ∘ g) := by
  cases block with
  | entry resources => simp only [map, mapM, List.mapM_map]
  | staticParamDb resources => simp only [map, mapM, List.mapM_map]
  | _ => rfl

theorem ShaderBlock.map_id {ρ : Type} (block : ShaderBlock ρ) : block.map id = block := by
  cases block <;> simp [map]

/-- A block that is still there is written as it was read exactly if its references
keep their indices. -/
theorem written_vanilla_iff (h : After depot rs rs.length blocks) (hlength : rs.length ≤ 2 ^ 32)
    {r : ShaderBlockResource UInt32} (hr : rs[i]? = some r)
    (hi : replacement depot rs i = none) :
    blocks.written (.vanilla i) = .ok { hash := r.hash, block := r.block } ↔
      ∀ index ∈ r.block.references, KeepsIndex depot rs i index.toNat := by
  obtain ⟨hlt, -⟩ := List.getElem?_eq_some_iff.mp hr
  have hblock := h.vanilla i r hr
  rw [if_pos ⟨hlt, hi⟩] at hblock
  have hwritten : blocks.written (.vanilla i) = .ok { hash := r.hash, block := r.block } ↔
      r.block.mapM (blocks.indexOf ∘ fun index => refAfter depot rs i index.toNat)
        = .ok (r.block.map id) := by
    have hfollow : blocks.follow (.vanilla i) = .ok (linked depot rs i r) := by
      rw [Blocks.follow, hblock]
      rfl
    rw [← ShaderBlock.mapM_map, ShaderBlock.map_id, Blocks.written, hfollow]
    constructor
    · intro h
      obtain ⟨found, hfound, h⟩ := bind_eq_ok h
      cases hfound
      obtain ⟨block, hindices, heq⟩ := bind_eq_ok h
      cases heq
      exact hindices
    · intro h
      show ((linked depot rs i r).block.mapM blocks.indexOf >>= fun block => Pure.pure _) = _
      rw [linked, h]
      rfl
  rw [hwritten, ShaderBlock.mapM_ok_iff]
  refine forall_congr' fun index => forall_congr' fun hindex => ?_
  rw [← indexOf_refAfter h hlength hi (h.references i r hlt hr index hindex), UInt32.ofNat_toNat]
  rfl

/-! ## The substitution -/

/-- The substitution ends, with the blocks after the last round. -/
theorem substituteBlocks_ok (depot : ModifiedShaderBlockDepot) (hinside : RefersInside rs)
    {sbResourceCount : UInt32} {bytes : List UInt8}
    (hread : readDepot sbResourceCount bytes = .ok rs) :
    ∃ blocks s', (substituteBlocks depot sbResourceCount).run (.ofBytes bytes) = .ok (blocks, s') ∧
      After depot rs rs.length blocks := by
  have hlength := (readDepot_fresh hread).1
  obtain ⟨⟨rs', s'⟩, hrun, heq⟩ := bind_eq_ok hread
  cases heq
  obtain ⟨directory, s₁, hdirectory, hrecords⟩ := BufM.bind_ok_iff.mp hrun
  obtain ⟨blocks, hplace⟩ :=
    placeAll_ok hinside (List.nil_append rs').symm (after_construct depot rs')
  refine ⟨blocks, s', BufM.bind_ok_iff.mpr ⟨directory, s₁, hdirectory, ?_⟩, ?_⟩
  · exact readBlocks_ok_iff.mpr ⟨rs', hrecords, hlength ▸ hplace⟩
  · exact after_placeAll (List.nil_append rs').symm (after_construct depot rs') hplace

theorem replacement_eq_none_iff {j : Nat} {r : ShaderBlockResource UInt32} (hr : rs[j]? = some r) :
    replacement depot rs j = none ↔ depot.containsHash r.hash = false := by
  rw [replacement, hr, Option.bind_some, ModifiedShaderBlockDepot.getResource,
    List.findIdx?_eq_none_iff, ModifiedShaderBlockDepot.containsHash, List.any_eq_false]
  simp

/-- Blocks that have one replacement have one hash. -/
theorem replacement_eq_iff {j k : Nat} {rj rk : ShaderBlockResource UInt32}
    (hj : rs[j]? = some rj) (hk : rs[k]? = some rk) (hsome : replacement depot rs j ≠ none) :
    replacement depot rs k = replacement depot rs j ↔ rk.hash = rj.hash := by
  have hat : ∀ {i m : Nat} {r : ShaderBlockResource UInt32}, rs[i]? = some r →
      replacement depot rs i = some m → (depot.resources[m]?).map Prod.fst = some r.hash := by
    intro i m r hr hm
    rw [replacement, hr, Option.bind_some, ModifiedShaderBlockDepot.getResource,
      List.findIdx?_eq_some_iff_getElem] at hm
    obtain ⟨hlt, heq, -⟩ := hm
    rw [List.getElem?_eq_getElem hlt, Option.map_some, eq_of_beq heq]
  constructor
  · intro heq
    obtain ⟨m, hm⟩ := Option.ne_none_iff_exists'.mp hsome
    exact Option.some.inj ((hat hk (heq.trans hm)).symm.trans (hat hj hm))
  · intro heq
    rw [replacement, replacement, hj, hk, Option.bind_some, Option.bind_some, heq]

/-- A reference of the block `i` to the block `j` is kept: no mod has a block of its
hash, or it is before `i` and no block behind it has its hash. -/
def KeepsReference (depot : ModifiedShaderBlockDepot) (rs : List (ShaderBlockResource UInt32))
    (i j : Nat) : Prop :=
  ∀ target, rs[j]? = some target → depot.containsHash target.hash = false ∨
    j < i ∧ ∀ k r, j < k → rs[k]? = some r → r.hash ≠ target.hash

theorem keepsIndex_iff {j : Nat} (hj : j < rs.length) :
    KeepsIndex depot rs i j ↔ KeepsReference depot rs i j := by
  have hrj : rs[j]? = some rs[j] := List.getElem?_eq_getElem hj
  by_cases hnone : replacement depot rs j = none
  · refine ⟨fun _ target htarget => .inl ?_, fun _ => .inl hnone⟩
    exact (replacement_eq_none_iff htarget).mp hnone
  · have hcontains : depot.containsHash rs[j].hash ≠ false :=
      fun h => hnone ((replacement_eq_none_iff hrj).mpr h)
    constructor
    · rintro (h | ⟨hlt, hno⟩) target htarget
      · exact absurd h hnone
      · refine .inr ⟨hlt, fun k r hk hr heq => ?_⟩
        obtain ⟨hlt', -⟩ := List.getElem?_eq_some_iff.mp hr
        exact hno k hk hlt' ((replacement_eq_iff htarget hr hnone).mpr heq)
    · intro h
      rcases h _ hrj with hfalse | ⟨hlt, hno⟩
      · exact absurd hfalse hcontains
      · refine .inr ⟨hlt, fun k hk hlt' heq => ?_⟩
        have hrk : rs[k]? = some rs[k] := List.getElem?_eq_getElem hlt'
        exact hno k _ hk hrk ((replacement_eq_iff hrj hrk hnone).mp heq)

/-- The types 0 and 2. -/
def ShaderBlock.isStatic {ρ : Type} (block : ShaderBlock ρ) : Prop :=
  block.type = .entry ∨ block.type = .staticParamDb

/-- The static blocks of the depot that are still there are written with the indices
they were read with exactly if no reference is lost. -/
theorem references_kept_iff (depot : ModifiedShaderBlockDepot) {sbResourceCount : UInt32}
    {bytes : List UInt8} {rs : List (ShaderBlockResource UInt32)}
    (hread : readDepot sbResourceCount bytes = .ok rs) (hinside : RefersInside rs) :
    ∃ blocks s', (substituteBlocks depot sbResourceCount).run (.ofBytes bytes) = .ok (blocks, s') ∧
      ((∀ (i : Nat) r, rs[i]? = some r → r.block.isStatic →
          blocks.entries[i]? = some (.vanilla i) →
          blocks.written (.vanilla i) = .ok { hash := r.hash, block := r.block }) ↔
        ∀ (i : Nat) r, rs[i]? = some r → r.block.isStatic → depot.containsHash r.hash = false →
          ∀ index ∈ r.block.references, KeepsReference depot rs i index.toNat) := by
  obtain ⟨blocks, s', hrun, hafter⟩ := substituteBlocks_ok depot hinside hread
  have hlength := (readDepot_fresh hread).1
  refine ⟨blocks, s', hrun, ?_⟩
  refine forall_congr' fun i => forall_congr' fun r => forall_congr' fun hr =>
    forall_congr' fun _ => ?_
  obtain ⟨hlt, -⟩ := List.getElem?_eq_some_iff.mp hr
  have hthere : blocks.entries[i]? = some (.vanilla i) ↔ depot.containsHash r.hash = false := by
    rw [hafter.entries i hlt, Option.some.injEq, ← replacement_eq_none_iff hr, refAfter, if_pos hlt]
    cases replacement depot rs i <;> simp
  rw [hthere]
  refine forall_congr' fun hfalse => ?_
  rw [written_vanilla_iff hafter (hlength ▸ Nat.le_of_lt sbResourceCount.toNat_lt) hr
    ((replacement_eq_none_iff hr).mpr hfalse)]
  refine forall_congr' fun index => forall_congr' fun hindex => ?_
  exact keepsIndex_iff (hafter.references i r hlt hr index hindex)

/-! ### A depot and a mod -/

/-- A parameter block that a mod replaces. -/
def plainBlock : ShaderBlockResource UInt32 := { hash := 7, block := .persistentParamDb [] }

/-- A static block that refers to the block with this index. -/
def referringBlock (index : UInt32) : ShaderBlockResource UInt32 :=
  { hash := 5, block := .staticParamDb [index] }

/-- The mod's resource: the name of its type, the count, and one block. -/
def shaderModResource : ModResource where
  type := .res
  name := [0x64]
  bundles := []
  handlerHash := 1
  resourceIndex := 0
  dupedWithHandler := false
  uniqueIdWithType := 0
  data :=
    { size := 66, originalSize := 66, fbFile := 0, dataOffset := 0, resType := 0, resRid := 0,
      resMeta := Vector.replicate 16 0, rangeStart := 0, rangeEnd := 0, logicalOffset := 0,
      logicalSize := 0, h32 := 0, firstMip := 0
      buffer := some ([0x54, 0] ++ leBytes 4 1 ++ List.replicate 12 0 ++ leBytes 8 40 ++
        leBytes 8 1 ++ List.replicate 8 0 ++ leBytes 8 7 ++ leBytes 8 32 ++ leBytes 8 4) }

/-- The blocks of the mod. -/
def shaderModDepot : ModifiedShaderBlockDepot where
  resources := [(7, { hash := 7, block := .persistentParamDb [] })]

theorem shaderModResource_collect :
    ModifiedShaderBlockDepot.collect [0x64] [shaderModResource] = .ok shaderModDepot := by
  decide

/-- A reference to the block before the static block is kept. -/
theorem backward_reference_kept :
    ∃ blocks s', (substituteBlocks shaderModDepot 2).run
        (.ofBytes (depotBytes [plainBlock, referringBlock 0])) = .ok (blocks, s') ∧
      blocks.entries[1]? = some (.vanilla 1) ∧
      blocks.written (.vanilla 1) = .ok { hash := 5, block := .staticParamDb [0] } := by
  have hread : readDepot 2 (depotBytes [plainBlock, referringBlock 0])
      = .ok [plainBlock, referringBlock 0] := by decide +kernel
  have hinside : RefersInside [plainBlock, referringBlock 0] := by
    intro r hr index hindex
    rcases List.mem_pair.mp hr with rfl | rfl
    · cases hindex
    · rw [List.mem_singleton.mp hindex]
      exact ⟨Nat.two_pos, Nat.two_pow_pos 31⟩
  obtain ⟨blocks, s', hrun, hiff⟩ := references_kept_iff shaderModDepot hread hinside
  have hentry : blocks.entries[1]? = some (.vanilla 1) := by
    have hend : ((substituteBlocks shaderModDepot 2).run
        (.ofBytes (depotBytes [plainBlock, referringBlock 0]))).map (·.1.entries[1]?)
          = .ok (some (.vanilla 1)) := by decide +kernel
    rw [hrun] at hend
    exact Except.ok.inj hend
  refine ⟨blocks, s', hrun, hentry, hiff.mpr ?_ 1 (referringBlock 0) rfl (.inr rfl) hentry⟩
  intro i r hr hstatic _ index hindex target htarget
  match i with
  | 0 =>
      cases hr
      rcases hstatic with h | h <;> cases h
  | 1 =>
      cases hr
      rw [List.mem_singleton.mp hindex] at htarget ⊢
      cases htarget
      refine .inr ⟨by decide, fun k r hk hr => ?_⟩
      match k with
      | 0 => exact absurd hk (by decide)
      | 1 =>
          cases hr
          decide
      | k + 2 => cases hr
  | i + 2 => cases hr

/-- A reference to the block behind the static block leads to a block that has been
deleted. -/
theorem forward_reference_lost :
    ModifiedShaderBlockDepot.collect [0x64] [shaderModResource] = .ok shaderModDepot ∧
    readDepot 2 (depotBytes [referringBlock 1, plainBlock])
      = .ok [referringBlock 1, plainBlock] ∧
    ∃ blocks s', (substituteBlocks shaderModDepot 2).run
        (.ofBytes (depotBytes [referringBlock 1, plainBlock])) = .ok (blocks, s') ∧
      blocks.entries[0]? = some (.vanilla 0) ∧
      blocks.written (.vanilla 0) = .error .outOfBounds := by
  have hend : ((substituteBlocks shaderModDepot 2).run
      (.ofBytes (depotBytes [referringBlock 1, plainBlock]))).map
        (fun p => (p.1.entries[0]?, p.1.written (.vanilla 0)))
      = .ok (some (.vanilla 0), .error .outOfBounds) := by decide +kernel
  cases hrun : (substituteBlocks shaderModDepot 2).run
      (.ofBytes (depotBytes [referringBlock 1, plainBlock])) with
  | error e =>
      rw [hrun] at hend
      cases hend
  | ok p =>
      rw [hrun] at hend
      obtain ⟨hentry, hwritten⟩ := Prod.mk.inj (Except.ok.inj hend)
      exact ⟨shaderModResource_collect, by decide +kernel, p.1, p.2, rfl, hentry, hwritten⟩

end Kyber.ModLoader
