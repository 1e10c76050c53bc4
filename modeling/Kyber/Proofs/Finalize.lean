import Kyber.Lib.Firsts
import Kyber.Lib.Maps
import Kyber.ModLoader.LoadMod
import Kyber.Proofs.Types
import Mathlib.Data.List.Perm.Subperm

/-!
# Which mod wins

Two facts describe what `FinalizeModLoads` leaves behind. `source` is the highest
resource of an id that has data without a handler; stage 2 finds it, stage 3
copies its data, and the pointer that stage 7 follows still leads to it, because
stage 3 only changes resources that have no data. And the list of a bundle is the
first requesting resource of each id, in the order of the vector, with the source
in its place if there is one: `resourcesOf_eq`.

The vector is sorted by type, which would matter if resources of one id could
differ in it. The sort is stable and they do not, so the first of an id in the
vector is the first in the order of the mods.
-/

namespace Kyber.ModLoader

open Kyber.Lib

/-! ## The loops over the bundles -/

/-- The id has been visited in the bundle. -/
def Visited.Seen (visited : Visited) (b id : UInt32) : Prop := id ∈ visited.getD b {}

instance (visited : Visited) (b id : UInt32) : Decidable (visited.Seen b id) :=
  inferInstanceAs (Decidable (id ∈ visited.getD b {}))

theorem not_seen_empty (b id : UInt32) : ¬ Visited.Seen {} b id := by
  simp [Visited.Seen]

/-- Looking a bundle up leaves an empty set behind, which says nothing. -/
theorem seen_insert_getD (visited : Visited) (a b id : UInt32) :
    Visited.Seen (visited.insert a (visited.getD a {})) b id ↔ visited.Seen b id := by
  unfold Visited.Seen
  rw [getD_insert_eq]
  split
  next h => rw [h]
  next => rfl

theorem seen_insert_insert (visited : Visited) (a b id id' : UInt32) :
    Visited.Seen (visited.insert a ((visited.getD a {}).insert id)) b id'
      ↔ visited.Seen b id' ∨ (b = a ∧ id' = id) := by
  unfold Visited.Seen
  rw [getD_insert_eq]
  split
  next h => rw [h, mem_insert_iff, or_comm]; simp
  next h => simp [h]

section Visit

variable {σ β : Type} (view : σ → UInt32 → β)

theorem visitBundles_seen (onNew : σ → UInt32 → σ) (id : UInt32) (bundles : List UInt32)
    (visited : Visited) (s : σ) (b id' : UInt32) :
    (visitBundles onNew id bundles visited s).1.Seen b id'
      ↔ visited.Seen b id' ∨ (b ∈ bundles ∧ id' = id) := by
  induction bundles generalizing visited s with
  | nil => simp [visitBundles]
  | cons a bundles ih =>
      rw [visitBundles]
      split
      next h =>
        have hseen : visited.Seen a id := h
        rw [ih, seen_insert_getD, List.mem_cons]
        constructor
        · rintro (hs | ⟨hb, rfl⟩)
          · exact .inl hs
          · exact .inr ⟨.inr hb, rfl⟩
        · rintro (hs | ⟨rfl | hb, rfl⟩)
          · exact .inl hs
          · exact .inl hseen
          · exact .inr ⟨hb, rfl⟩
      next =>
        rw [ih, seen_insert_insert, List.mem_cons, or_assoc, ← or_and_right]

/-- A bundle is seen to once, if it is among the resource's and has not seen the
id yet. -/
theorem visitBundles_view {onNew : σ → UInt32 → σ} {g : β → β}
    (hview : ∀ s b b', view (onNew s b) b' = if b' = b then g (view s b) else view s b')
    (id : UInt32) (bundles : List UInt32) (visited : Visited) (s : σ) (b : UInt32) :
    view (visitBundles onNew id bundles visited s).2 b
      = if b ∈ bundles ∧ ¬ visited.Seen b id then g (view s b) else view s b := by
  induction bundles generalizing visited s with
  | nil => simp [visitBundles]
  | cons a bundles ih =>
      rw [visitBundles]
      split
      next h =>
        have hseen : visited.Seen a id := h
        rw [ih]
        simp only [seen_insert_getD]
        by_cases hb : b = a
        · subst hb
          simp [hseen]
        · simp [hb]
      next h =>
        have hseen : ¬ visited.Seen a id := h
        rw [ih, hview]
        simp only [seen_insert_insert]
        by_cases hb : b = a
        · subst hb
          simp [hseen]
        · simp [hb]

/-- The resources of a list that ask to be in a bundle. -/
def requests (b : UInt32) (rs : List ModResource) : List ModResource :=
  rs.filter fun r => r.inBundles && r.containsBundle b

theorem visitResources_view (g : ModResource → β → β) {onNew : ModResource → σ → UInt32 → σ}
    (hview : ∀ r s b b', view (onNew r s b) b' = if b' = b then g r (view s b) else view s b')
    (rs : List ModResource) (visited : Visited) (s : σ) (b : UInt32) :
    view (visitResources onNew rs visited s) b
      = ((firsts (·.uniqueIdWithType) (requests b rs)).filter
          fun r => ¬ visited.Seen b r.uniqueIdWithType).foldl (fun x r => g r x) (view s b) := by
  induction rs generalizing visited s with
  | nil => rfl
  | cons r rs ih =>
      rw [visitResources]
      by_cases hin : r.inBundles = true
      · have hskip : ¬ (r.handlerHash ≠ 0 ∧ (!r.dupedWithHandler) = true) := by
          simp [ModResource.inBundles] at hin
          simp; tauto
        rw [if_neg hskip, ih, visitBundles_view view (hview r)]
        simp only [visitBundles_seen]
        by_cases hb : b ∈ r.bundles
        · have hreq : requests b (r :: rs) = r :: requests b rs := by
            simp [requests, hin, ModResource.containsBundle, hb]
          rw [hreq, firsts, List.filter_cons, List.filter_filter]
          by_cases hseen : visited.Seen b r.uniqueIdWithType
          · rw [if_neg (by simp [hb, hseen]), if_neg (by simp [hseen])]
            congr 1
            refine List.filter_congr fun r' _ => ?_
            by_cases he : r'.uniqueIdWithType = r.uniqueIdWithType
            · simp [he, hseen]
            · simp [he]
          · rw [if_pos ⟨hb, hseen⟩, if_pos (by simp [hseen]), List.foldl_cons]
            congr 1
            refine List.filter_congr fun r' _ => ?_
            simp [hb, not_or]
        · have hreq : requests b (r :: rs) = requests b rs := by
            simp [requests, ModResource.containsBundle, hb]
          rw [hreq, if_neg (by simp [hb])]
          simp [hb]
      · have hskip : r.handlerHash ≠ 0 ∧ (!r.dupedWithHandler) = true := by
          simp [ModResource.inBundles] at hin
          simpa using hin
        rw [if_pos hskip, ih]
        simp [requests, hin]

end Visit

/-! ## The source of an id -/

/-- The resource brings data for the id that no handler has to merge. -/
def ModResource.supplies (id : UInt32) (r : ModResource) : Bool :=
  r.handlerFreeData && r.uniqueIdWithType == id

/-- The first resource of a list that has data for an id. -/
def source (rs : List ModResource) (id : UInt32) : Option ModResource := rs.find? (·.supplies id)

theorem source_supplies {rs : List ModResource} {id : UInt32} {r : ModResource}
    (h : source rs id = some r) : r.handlerFreeData = true ∧ r.uniqueIdWithType = id := by
  have := List.find?_some h
  simpa [ModResource.supplies] using this

theorem handlerFreeData_iff (r : ModResource) :
    r.handlerFreeData = true ↔ r.handlerHash = 0 ∧ r.resourceIndex ≠ -1 := by
  simp [ModResource.handlerFreeData]

/-- The maps are those of the sources of a list: their data, and indices into the
list that lead to them. -/
structure Sources.Of (sources : Sources) (rs : List ModResource) : Prop where
  data : ∀ id, sources.data[id]? = (source rs id).map (·.data)
  overrides_none : ∀ id, source rs id = none → sources.overrides[id]? = none
  overrides_some : ∀ id r, source rs id = some r →
    ∃ k, sources.overrides[id]? = some k ∧ rs[k]? = some r

theorem Sources.of_nil : Sources.Of {} [] where
  data _ := rfl
  overrides_none _ _ := rfl
  overrides_some _ _ h := by cases h

theorem source_snoc (rs : List ModResource) (r : ModResource) (id : UInt32) :
    source (rs ++ [r]) id = (source rs id).or (if r.supplies id then some r else none) := by
  rw [source, List.find?_append]
  congr 1
  cases h : r.supplies id <;> simp [h]

/-- A resource that supplies nothing new leaves the sources of every id alone. -/
theorem source_snoc_of_not {rs : List ModResource} {r : ModResource} {id : UInt32}
    (h : r.supplies id = true → (source rs id).isSome) : source (rs ++ [r]) id = source rs id := by
  rw [source_snoc]
  cases hs : source rs id with
  | some r' => rfl
  | none =>
      cases hsup : r.supplies id with
      | false => rfl
      | true => simp [hs] at h; simp [h] at hsup

theorem Sources.Of.snoc_of_not {sources : Sources} {rs : List ModResource} {r : ModResource}
    (h : sources.Of rs) (hr : ∀ id, r.supplies id = true → (source rs id).isSome) :
    sources.Of (rs ++ [r]) where
  data id := by rw [source_snoc_of_not (hr id), h.data]
  overrides_none id hn := h.overrides_none id (by rwa [source_snoc_of_not (hr id)] at hn)
  overrides_some id r' hs := by
    rw [source_snoc_of_not (hr id)] at hs
    obtain ⟨k, hk, hget⟩ := h.overrides_some id r' hs
    exact ⟨k, hk, List.getElem?_append_left (List.getElem?_eq_some_iff.mp hget).1 ▸ hget⟩

theorem Sources.Of.visit {sources : Sources} {rs : List ModResource} (h : sources.Of rs)
    (r : ModResource) : (sources.visit rs.length r).Of (rs ++ [r]) := by
  unfold Sources.visit
  split
  next hskip =>
    refine h.snoc_of_not fun id hsup => ?_
    simp only [ModResource.supplies, ModResource.handlerFreeData, Bool.and_eq_true, beq_iff_eq,
      bne_iff_ne] at hsup
    rcases hskip with hskip | hskip
    · exact absurd hsup.1.1 hskip
    · exact absurd hskip hsup.1.2
  next hdata =>
    push Not at hdata
    have hsup : ∀ id, r.supplies id = true ↔ r.uniqueIdWithType = id := by
      intro id
      simp [ModResource.supplies, (handlerFreeData_iff r).mpr hdata]
    split
    next hc =>
      refine h.snoc_of_not fun id hid => ?_
      rw [hsup] at hid
      rw [Std.TreeMap.contains_eq_isSome_getElem?, h.data, Option.isSome_map, hid] at hc
      exact hc
    next hc =>
      rw [Std.TreeMap.contains_eq_isSome_getElem?, h.data, Option.isSome_map,
        Bool.not_eq_true, Option.isSome_eq_false_iff, Option.isNone_iff_eq_none] at hc
      have hself : source (rs ++ [r]) r.uniqueIdWithType = some r := by
        rw [source_snoc, hc, if_pos ((hsup _).mpr rfl)]
        rfl
      have hother : ∀ id, id ≠ r.uniqueIdWithType → source (rs ++ [r]) id = source rs id := by
        intro id hid
        refine source_snoc_of_not fun hs => ?_
        exact absurd ((hsup id).mp hs).symm hid
      constructor
      · intro id
        rw [getElem?_insert_eq]
        by_cases hid : id = r.uniqueIdWithType
        · subst hid
          simp [hself]
        · rw [hother id hid, ← h.data, if_neg hid]
      · intro id hn
        have hid : id ≠ r.uniqueIdWithType := by
          rintro rfl
          rw [hself] at hn
          cases hn
        rw [hother id hid] at hn
        rw [getElem?_insert_eq, h.overrides_none id hn, if_neg hid]
      · intro id r' hs
        rw [getElem?_insert_eq]
        by_cases hid : id = r.uniqueIdWithType
        · subst hid
          rw [hself] at hs
          cases hs
          exact ⟨rs.length, by simp, by simp⟩
        · rw [hother id hid] at hs
          obtain ⟨k, hk, hget⟩ := h.overrides_some id r' hs
          refine ⟨k, ?_, ?_⟩
          · rw [if_neg hid, hk]
          · rw [List.getElem?_append_left (List.getElem?_eq_some_iff.mp hget).1, hget]

theorem collectSources_of {sources : Sources} {seen : List ModResource} (h : sources.Of seen)
    (rs : List ModResource) : (collectSources rs seen.length sources).Of (seen ++ rs) := by
  induction rs generalizing seen sources with
  | nil => simpa [collectSources] using h
  | cons r rs ih =>
      have := ih (h.visit r)
      rw [List.length_append, List.append_assoc] at this
      exact this

/-! ## Inheriting data -/

section Inherit

variable (data : Std.TreeMap UInt32 ModResourceData) (r : ModResource)

@[simp] theorem inheritData_type : (inheritData data r).type = r.type := by
  unfold inheritData
  split <;> (try split) <;> rfl

@[simp] theorem inheritData_name : (inheritData data r).name = r.name := by
  unfold inheritData
  split <;> (try split) <;> rfl

@[simp] theorem inheritData_bundles : (inheritData data r).bundles = r.bundles := by
  unfold inheritData
  split <;> (try split) <;> rfl

@[simp] theorem inheritData_handlerHash : (inheritData data r).handlerHash = r.handlerHash := by
  unfold inheritData
  split <;> (try split) <;> rfl

@[simp] theorem inheritData_dupedWithHandler :
    (inheritData data r).dupedWithHandler = r.dupedWithHandler := by
  unfold inheritData
  split <;> (try split) <;> rfl

@[simp] theorem inheritData_uniqueIdWithType :
    (inheritData data r).uniqueIdWithType = r.uniqueIdWithType := by
  unfold inheritData
  split <;> (try split) <;> rfl

end Inherit

/-- A resource with data keeps it. -/
theorem inheritData_of_data {data : Std.TreeMap UInt32 ModResourceData} {r : ModResource}
    (h : r.handlerFreeData = true) : inheritData data r = r := by
  rw [handlerFreeData_iff] at h
  rw [inheritData, if_pos (.inr h.2)]

theorem inheritData_of_none {data : Std.TreeMap UInt32 ModResourceData} {r : ModResource}
    (h : data[r.uniqueIdWithType]? = none) : inheritData data r = r := by
  unfold inheritData
  rw [h]
  split <;> rfl

/-- `m_modResources` as stage 1 leaves it. -/
def sorted (mods : List KyberMod) : List ModResource := (byPriority mods).mergeSort leType

theorem sources_of (mods : List KyberMod) :
    (collectSources (sorted mods) 0 {}).Of (sorted mods) :=
  collectSources_of Sources.of_nil (sorted mods)

theorem modResources_eq (mods : List KyberMod) :
    (finalizeModLoads mods).modResources
      = (sorted mods).map (inheritData (collectSources (sorted mods) 0 {}).data) := rfl

/-- Stage 7 puts the source of an id into the bundle, if there is one. -/
theorem assignableResource_eq {rs : List ModResource} {sources : Sources} (h : sources.Of rs)
    {r : ModResource} (hb : r.bundles ≠ []) :
    assignableResource (rs.map (inheritData sources.data)) sources.overrides
        (inheritData sources.data r)
      = (source rs r.uniqueIdWithType).getD r := by
  have hne : ¬ (inheritData sources.data r).bundles.isEmpty := by simpa using hb
  rw [assignableResource, if_neg hne, inheritData_uniqueIdWithType]
  cases hs : source rs r.uniqueIdWithType with
  | none =>
      rw [h.overrides_none _ hs, Option.getD_none, inheritData_of_none]
      rw [h.data, hs]
      rfl
  | some r' =>
      obtain ⟨k, hk, hget⟩ := h.overrides_some _ _ hs
      rw [hk]
      simp only [List.getD_eq_getElem?_getD, List.getElem?_map, hget, Option.map_some,
        Option.getD_some]
      exact inheritData_of_data (source_supplies hs).1

/-! ## The lists of the bundles -/

theorem requests_map_inheritData (data : Std.TreeMap UInt32 ModResourceData) (b : UInt32)
    (rs : List ModResource) :
    requests b (rs.map (inheritData data)) = (requests b rs).map (inheritData data) := by
  rw [requests, List.filter_map]
  congr 1
  refine List.filter_congr fun r _ => ?_
  simp [ModResource.inBundles, ModResource.containsBundle]

theorem filter_not_seen_empty (b : UInt32) (rs : List ModResource) :
    rs.filter (fun r => ¬ Visited.Seen {} b r.uniqueIdWithType) = rs := by
  rw [List.filter_eq_self]
  intro r _
  simp [not_seen_empty]

theorem mem_requests {b : UInt32} {rs : List ModResource} {r : ModResource} :
    r ∈ requests b rs ↔ r ∈ rs ∧ r.inBundles = true ∧ b ∈ r.bundles := by
  simp [requests, ModResource.containsBundle]

theorem visitResources_addResource (f : ModResource → ModResource) (rs : List ModResource)
    (b : UInt32) : (visitResources (addResource f) rs {} {}).getD b []
      = (firsts (·.uniqueIdWithType) (requests b rs)).map f := by
  have hview : ∀ r (lists : Std.TreeMap UInt32 (List ModResource)) b b',
      (addResource f r lists b).getD b' []
        = if b' = b then lists.getD b [] ++ [f r] else lists.getD b' [] := by
    intro r lists b b'
    rw [addResource, getD_insert_eq]
  rw [visitResources_view (fun lists b => Std.TreeMap.getD lists b []) (fun r x => x ++ [f r])
    hview, filter_not_seen_empty, List.foldl_append_eq_append, ← List.flatMap_def,
    List.map_eq_flatMap]
  simp

theorem foldl_add_one {α : Type} (l : List α) (n : UInt32) :
    l.foldl (fun x _ => x + 1) n = n + UInt32.ofNat l.length := by
  induction l generalizing n with
  | nil => simp
  | cons a l ih =>
      rw [List.foldl_cons, ih, List.length_cons, UInt32.ofNat_add, UInt32.add_assoc,
        UInt32.add_comm 1]
      rfl

theorem visitResources_countResource (rs : List ModResource) (b : UInt32) :
    (visitResources countResource rs {} {}).getD b 0
      = UInt32.ofNat (firsts (·.uniqueIdWithType) (requests b rs)).length := by
  have hview : ∀ r (counts : Std.TreeMap UInt32 UInt32) b b',
      (countResource r counts b).getD b' 0
        = if b' = b then counts.getD b 0 + 1 else counts.getD b' 0 := by
    intro r counts b b'
    rw [countResource, getD_insert_eq]
  rw [visitResources_view (fun counts b => Std.TreeMap.getD counts b 0) (fun _ x => x + 1)
    hview, filter_not_seen_empty, foldl_add_one]
  simp

/-- What a bundle holds: the first request of each id in the vector, replaced by
the source of the id if it has one. -/
theorem resourcesOf_eq (mods : List KyberMod) (b : UInt32) :
    (finalizeModLoads mods).resourcesOf b
      = (firsts (·.uniqueIdWithType) (requests b (sorted mods))).map
          fun r => (source (sorted mods) r.uniqueIdWithType).getD r := by
  have h := visitResources_addResource (assignableResource
    (finalizeModLoads mods).modResources (collectSources (sorted mods) 0 {}).overrides)
    (finalizeModLoads mods).modResources b
  refine h.trans ?_
  rw [modResources_eq, requests_map_inheritData, firsts_map, List.map_map]
  simp only [inheritData_uniqueIdWithType]
  refine List.map_congr_left fun r hr => ?_
  have hr' := mem_requests.mp ((firsts_sublist _ _).subset hr)
  exact assignableResource_eq (sources_of mods) (List.ne_nil_of_mem hr'.2.2)

theorem reserved_eq (mods : List KyberMod) (b : UInt32) :
    (finalizeModLoads mods).reserved.getD b 0
      = UInt32.ofNat ((finalizeModLoads mods).resourcesOf b).length := by
  rw [resourcesOf_eq, List.length_map]
  refine (visitResources_countResource (finalizeModLoads mods).modResources b).trans ?_
  rw [modResources_eq, requests_map_inheritData, firsts_map, List.length_map]
  simp only [inheritData_uniqueIdWithType]

/-! ## From the vector back to the mods -/

/-- Resources of one id are of one type and name. -/
def IdsDistinct (mods : List KyberMod) : Prop :=
  ∀ r ∈ byPriority mods, ∀ r' ∈ byPriority mods,
    r.uniqueIdWithType = r'.uniqueIdWithType → r.type = r'.type ∧ r.name = r'.name

theorem mem_byPriority {mods : List KyberMod} {r : ModResource} :
    r ∈ byPriority mods ↔ ∃ m ∈ mods, r ∈ m.resources := by
  simp [byPriority]

theorem mem_sorted {mods : List KyberMod} {r : ModResource} :
    r ∈ sorted mods ↔ r ∈ byPriority mods := List.mem_mergeSort

theorem leType_trans (a b c : ModResource) (hab : leType a b = true) (hbc : leType b c = true) :
    leType a c = true := by
  simp only [leType, decide_eq_true_eq] at *
  omega

theorem leType_total (a b : ModResource) : (leType a b || leType b a) = true := by
  simp only [leType, Bool.or_eq_true, decide_eq_true_eq]
  omega

theorem leType_of_type_eq {a b : ModResource} (h : a.type = b.type) : leType a b = true := by
  simp [leType, h]

theorem filter_sorted {mods : List KyberMod} {p : ModResource → Bool}
    (h : ∀ a ∈ byPriority mods, ∀ b ∈ byPriority mods, p a → p b → a.type = b.type) :
    (sorted mods).filter p = (byPriority mods).filter p :=
  filter_mergeSort leType_trans leType_total
    fun a ha b hb pa pb => leType_of_type_eq (h a ha b hb pa pb)

/-- The data of an id in the last-loaded mod that has some. -/
def lastSource (mods : List KyberMod) (id : UInt32) : Option ModResource :=
  mods.reverse.findSome? fun m => source m.resources id

theorem lastSource_eq (mods : List KyberMod) (id : UInt32) :
    lastSource mods id = source (byPriority mods) id := by
  rw [source, byPriority, List.find?_flatMap]
  rfl

theorem source_sorted {mods : List KyberMod} (h : IdsDistinct mods) (id : UInt32) :
    source (sorted mods) id = lastSource mods id := by
  have hf : (sorted mods).filter (·.supplies id) = (byPriority mods).filter (·.supplies id) := by
    refine filter_sorted fun a ha b hb pa pb => (h a ha b hb ?_).1
    simp only [ModResource.supplies, Bool.and_eq_true, beq_iff_eq] at pa pb
    rw [pa.2, pb.2]
  rw [lastSource_eq, source, ← List.head?_filter, hf, List.head?_filter, source]

theorem getD_source_id (rs : List ModResource) (r : ModResource) :
    ((source rs r.uniqueIdWithType).getD r).uniqueIdWithType = r.uniqueIdWithType := by
  cases hs : source rs r.uniqueIdWithType with
  | none => rfl
  | some r' => exact (source_supplies hs).2

/-- An entry of a bundle has the id and the type of the request it stands for. -/
theorem getD_source_spec {mods : List KyberMod} (h : IdsDistinct mods) {r : ModResource}
    (hr : r ∈ sorted mods) :
    ((source (sorted mods) r.uniqueIdWithType).getD r).uniqueIdWithType = r.uniqueIdWithType ∧
      ((source (sorted mods) r.uniqueIdWithType).getD r).type = r.type := by
  cases hs : source (sorted mods) r.uniqueIdWithType with
  | none => exact ⟨rfl, rfl⟩
  | some r' =>
      have hid := (source_supplies hs).2
      have hmem := mem_sorted.mp (List.mem_of_find?_eq_some hs)
      exact ⟨hid, (h r' hmem r (mem_sorted.mp hr) hid).1⟩

theorem firsts_requests_subset {mods : List KyberMod} {b : UInt32} {r : ModResource}
    (hr : r ∈ firsts (·.uniqueIdWithType) (requests b (sorted mods))) : r ∈ sorted mods :=
  (mem_requests.mp ((firsts_sublist _ _).subset hr)).1

theorem resourcesOf_ids (mods : List KyberMod) (b : UInt32) :
    ((finalizeModLoads mods).resourcesOf b).map (·.uniqueIdWithType)
      = (firsts (·.uniqueIdWithType) (requests b (sorted mods))).map (·.uniqueIdWithType) := by
  rw [resourcesOf_eq, List.map_map]
  exact List.map_congr_left fun r _ => getD_source_id _ r

theorem resourcesOf_nodup (mods : List KyberMod) (b : UInt32) :
    (((finalizeModLoads mods).resourcesOf b).map (·.uniqueIdWithType)).Nodup := by
  rw [resourcesOf_ids]
  exact nodup_firsts _ _

/-- The resources of the bundles are among those of the mods. -/
theorem resourcesOf_subset {mods : List KyberMod} {b : UInt32} {r : ModResource}
    (hr : r ∈ (finalizeModLoads mods).resourcesOf b) : r ∈ (finalizeModLoads mods).modResources := by
  rw [resourcesOf_eq] at hr
  obtain ⟨r₀, hr₀, rfl⟩ := List.mem_map.mp hr
  rw [modResources_eq]
  cases hs : source (sorted mods) r₀.uniqueIdWithType with
  | none =>
      refine List.mem_map.mpr ⟨r₀, firsts_requests_subset hr₀, inheritData_of_none ?_⟩
      rw [(sources_of mods).data, hs]
      rfl
  | some r' =>
      exact List.mem_map.mpr ⟨r', List.mem_of_find?_eq_some hs,
        inheritData_of_data (source_supplies hs).1⟩

/-- Some mod has a resource of the id that is to be in the bundle. -/
def Requested (mods : List KyberMod) (b id : UInt32) : Prop :=
  ∃ m ∈ mods, ∃ r ∈ m.resources, r.uniqueIdWithType = id ∧ b ∈ r.bundles ∧
    (r.handlerHash = 0 ∨ r.dupedWithHandler = true)

theorem mem_resourcesOf_ids (mods : List KyberMod) (b id : UInt32) :
    id ∈ ((finalizeModLoads mods).resourcesOf b).map (·.uniqueIdWithType)
      ↔ Requested mods b id := by
  rw [resourcesOf_ids, mem_map_firsts, List.mem_map]
  constructor
  · rintro ⟨r, hr, rfl⟩
    obtain ⟨hmem, hin, hb⟩ := mem_requests.mp hr
    obtain ⟨m, hm, hr⟩ := mem_byPriority.mp (mem_sorted.mp hmem)
    exact ⟨m, hm, r, hr, rfl, hb, by simpa [ModResource.inBundles] using hin⟩
  · rintro ⟨m, hm, r, hr, rfl, hb, hin⟩
    refine ⟨r, mem_requests.mpr ⟨mem_sorted.mpr (mem_byPriority.mpr ⟨m, hm, hr⟩), ?_, hb⟩, rfl⟩
    simpa [ModResource.inBundles] using hin

/-- Not all ids fit below a 32-bit count, but all but one do. -/
theorem length_lt_of_not_mem {ids : List UInt32} (h : ids.Nodup) {id : UInt32} (hid : id ∉ ids) :
    ids.length < 2 ^ 32 := by
  have hnodup : ((id :: ids).map UInt32.toNat).Nodup :=
    (List.nodup_cons.mpr ⟨hid, h⟩).map fun a b => UInt32.toNat_inj.mp
  have hsub : (id :: ids).map UInt32.toNat ⊆ List.range (2 ^ 32) := by
    intro n hn
    obtain ⟨a, -, rfl⟩ := List.mem_map.mp hn
    exact List.mem_range.mpr a.toNat_lt
  have := (List.subperm_of_subset hnodup hsub).length_le
  rw [List.length_map, List.length_cons, List.length_range] at this
  omega

/-! ## Precedence -/

/-- What `FinalizeModLoads` promises of the loader it leaves behind. -/
structure Precedence (mods : List KyberMod) (loader : FinalizedMods) : Prop where
  /-- A bundle has one resource of each id that is requested for it. -/
  requested : ∀ b id, Requested mods b id →
    (loader.resourcesOf b).countP (·.uniqueIdWithType == id) = 1
  not_requested : ∀ b id, ¬ Requested mods b id →
    (loader.resourcesOf b).countP (·.uniqueIdWithType == id) = 0
  /-- The data of an id is the last mod's, in the bundles ... -/
  bundle_data : ∀ id r, lastSource mods id = some r →
    ∀ b, ∀ e ∈ loader.resourcesOf b, e.uniqueIdWithType = id → e.data = r.data
  /-- ... and in the resources that came without. -/
  inherited_data : ∀ id r, lastSource mods id = some r →
    ∀ (i : Nat) (e : ModResource), (sorted mods)[i]? = some e → e.uniqueIdWithType = id →
      e.handlerHash = 0 → e.resourceIndex = -1 →
      ∃ e', loader.modResources[i]? = some e' ∧ e'.uniqueIdWithType = id ∧ e'.data = r.data
  by_type : ∀ b, (loader.resourcesOf b).Pairwise fun a a' => a.type.value ≤ a'.type.value
  /-- Within a type, a bundle follows the order of the first requests. -/
  by_priority : ∀ b type,
    ((loader.resourcesOf b).filter (·.type = type)).map (·.uniqueIdWithType)
      = ((firsts (·.uniqueIdWithType) (requests b (byPriority mods))).filter (·.type = type)).map
          (·.uniqueIdWithType)
  /-- The room reserved for a bundle is the length of its list, as far as it can be
  said in 32 bits. -/
  reserved : ∀ b id, ¬ Requested mods b id →
    (loader.reserved.getD b 0).toNat = (loader.resourcesOf b).length

/-- The first requests of one type are the same in the vector and in the order of
the mods. -/
theorem firsts_requests_type {mods : List KyberMod} (h : IdsDistinct mods) (b : UInt32)
    (type : ResourceType) :
    (firsts (·.uniqueIdWithType) (requests b (sorted mods))).filter (·.type = type)
      = (firsts (·.uniqueIdWithType) (requests b (byPriority mods))).filter (·.type = type) := by
  have hcongr : ∀ rs : List ModResource, (∀ r ∈ rs, r ∈ byPriority mods) →
      ∀ r ∈ rs, ∀ r' ∈ rs, r.uniqueIdWithType = r'.uniqueIdWithType →
        decide (r.type = type) = decide (r'.type = type) := by
    intro rs hrs r hr r' hr' hid
    rw [(h r (hrs r hr) r' (hrs r' hr') hid).1]
  rw [filter_firsts _ (hcongr _ fun r hr => mem_sorted.mp (mem_requests.mp hr).1),
    filter_firsts _ (hcongr _ fun r hr => (mem_requests.mp hr).1)]
  congr 1
  rw [requests, requests, List.filter_filter, List.filter_filter]
  refine filter_sorted fun a _ b _ pa pb => ?_
  simp only [Bool.and_eq_true, decide_eq_true_eq] at pa pb
  rw [pa.1, pb.1]

theorem countP_resourcesOf (mods : List KyberMod) (b id : UInt32) :
    ((finalizeModLoads mods).resourcesOf b).countP (·.uniqueIdWithType == id)
      = (((finalizeModLoads mods).resourcesOf b).map (·.uniqueIdWithType)).count id := by
  rw [List.count, List.countP_map]
  rfl

/-- A bundle's resource of an id that has data has the data of its source. -/
theorem resourcesOf_data {mods : List KyberMod} {id : UInt32}
    {r : ModResource} (hsrc : source (sorted mods) id = some r) {b : UInt32} {e : ModResource}
    (he : e ∈ (finalizeModLoads mods).resourcesOf b) (hid : e.uniqueIdWithType = id) :
    e.data = r.data := by
  rw [resourcesOf_eq] at he
  obtain ⟨r', hr', rfl⟩ := List.mem_map.mp he
  rw [getD_source_id] at hid
  rw [hid, hsrc]
  rfl

theorem modResources_inherited {mods : List KyberMod} {id : UInt32}
    {r : ModResource} (hsrc : source (sorted mods) id = some r) {i : Nat} {e : ModResource}
    (he : (sorted mods)[i]? = some e) (hid : e.uniqueIdWithType = id) (hh : e.handlerHash = 0)
    (hi : e.resourceIndex = -1) :
    ∃ e', (finalizeModLoads mods).modResources[i]? = some e' ∧ e'.uniqueIdWithType = id ∧
      e'.data = r.data := by
  refine ⟨inheritData (collectSources (sorted mods) 0 {}).data e, ?_, by simpa using hid, ?_⟩
  · rw [modResources_eq, List.getElem?_map, he]
    rfl
  · have hdata : (collectSources (sorted mods) 0 {}).data[e.uniqueIdWithType]? = some r.data := by
      rw [(sources_of mods).data, hid, hsrc]
      rfl
    rw [inheritData, if_neg (by simp [hh, hi]), hdata]

theorem resourcesOf_by_type {mods : List KyberMod} (h : IdsDistinct mods) (b : UInt32) :
    ((finalizeModLoads mods).resourcesOf b).Pairwise fun a a' => a.type.value ≤ a'.type.value := by
  have hpw : (sorted mods).Pairwise fun a a' => leType a a' = true :=
    List.pairwise_mergeSort leType_trans leType_total _
  rw [resourcesOf_eq, List.pairwise_map]
  refine (List.Pairwise.sublist ((firsts_sublist _ _).trans List.filter_sublist)
    hpw).imp_of_mem ?_
  intro a a' ha ha' hle
  rw [(getD_source_spec h (firsts_requests_subset ha)).2,
    (getD_source_spec h (firsts_requests_subset ha')).2]
  simpa [leType] using hle

theorem resourcesOf_by_priority {mods : List KyberMod} (h : IdsDistinct mods) (b : UInt32)
    (type : ResourceType) :
    (((finalizeModLoads mods).resourcesOf b).filter (·.type = type)).map (·.uniqueIdWithType)
      = ((firsts (·.uniqueIdWithType) (requests b (byPriority mods))).filter (·.type = type)).map
          (·.uniqueIdWithType) := by
  rw [resourcesOf_eq, List.filter_map, List.map_map, ← firsts_requests_type h]
  have htype : (firsts (·.uniqueIdWithType) (requests b (sorted mods))).filter
        ((fun e : ModResource => decide (e.type = type)) ∘
          fun r => (source (sorted mods) r.uniqueIdWithType).getD r)
      = (firsts (·.uniqueIdWithType) (requests b (sorted mods))).filter (·.type = type) := by
    refine List.filter_congr fun r hr => ?_
    rw [Function.comp_apply, (getD_source_spec h (firsts_requests_subset hr)).2]
  rw [htype]
  exact List.map_congr_left fun r _ => getD_source_id _ r

theorem finalizeModLoads_precedence (mods : List KyberMod) (h : IdsDistinct mods) :
    Precedence mods (finalizeModLoads mods) where
  requested b id hreq := by
    rw [countP_resourcesOf]
    exact List.count_eq_one_of_mem (resourcesOf_nodup mods b)
      ((mem_resourcesOf_ids mods b id).mpr hreq)
  not_requested b id hreq := by
    rw [countP_resourcesOf]
    exact List.count_eq_zero.mpr fun hmem => hreq ((mem_resourcesOf_ids mods b id).mp hmem)
  bundle_data id _ hsrc _ _ he hid := resourcesOf_data (source_sorted h id ▸ hsrc) he hid
  inherited_data id _ hsrc _ _ he hid hh hi :=
    modResources_inherited (source_sorted h id ▸ hsrc) he hid hh hi
  by_type b := resourcesOf_by_type h b
  by_priority b type := resourcesOf_by_priority h b type
  reserved b id hreq := by
    have hlt := length_lt_of_not_mem (resourcesOf_nodup mods b)
      fun hmem => hreq ((mem_resourcesOf_ids mods b id).mp hmem)
    rw [List.length_map] at hlt
    rw [reserved_eq, UInt32.toNat_ofNat_of_lt' hlt]

/-- An ebx resource. -/
def ebxResource (name : ByteString) (id : UInt32) (bundles : List UInt32)
    (resourceIndex : Int32) (size : UInt64) : ModResource where
  type := .ebx
  name
  bundles
  handlerHash := 0
  resourceIndex
  dupedWithHandler := false
  uniqueIdWithType := id
  data :=
    { size, originalSize := size, buffer := none, fbFile := 0, dataOffset := 0, resType := 0
      resRid := 0, resMeta := Vector.replicate 16 0, rangeStart := 0, rangeEnd := 0
      logicalOffset := 0, logicalSize := 0, h32 := 0, firstMip := -1 }

/-- Two mods change an asset, and a third one, loaded last, only adds it to two
bundles. -/
theorem finalizeModLoads_precedence_sample :
    let a := hashQuickLower [0x32, 0x5f, 0x61]
    let b := hashQuickLower [0x32, 0x5f, 0x62]
    let mods : List KyberMod :=
      [{ resources := [ebxResource [0x61] a [1] 0 10] },
        { resources := [ebxResource [0x61] a [] 3 20, ebxResource [0x62] b [1] 0 30] },
        { resources := [ebxResource [0x61] a [1, 2] (-1) 0] }]
    IdsDistinct mods ∧ Precedence mods (finalizeModLoads mods) := by
  intro a b mods
  have h : IdsDistinct mods := by
    unfold IdsDistinct
    decide
  exact ⟨h, finalizeModLoads_precedence mods h⟩

/-! Four files of 2^30 assets each, whose names have all the ids there are, make a bundle that is
one too long for its count. -/

/-- A game without assets. -/
def noVanilla : VanillaTables where
  getVanillaEbxEntry _ := none
  getVanillaResEntry _ := none
  getVanillaChunkEntry _ := none

/-- An asset that is added to the bundle 0. -/
def addedAsset (name : ByteString) : RTFrostyResource where
  type := .ebx
  resourceIndex := -1
  name
  size := 0
  handlerHash := 0
  addedBundles := [0]
  resType := 0
  resRid := 0
  resMeta := Vector.replicate 16 0
  rangeStart := 0
  rangeEnd := 0
  logicalOffset := 0
  logicalSize := 0
  h32 := 0
  firstMip := -1

/-- A file with assets whose names make the ids from `first` on. -/
def idsFile (first count : Nat) : RTFrostyMod where
  dataOffset := 0
  dataCount := 0
  resources := ((List.range' first count).map nameOf).map addedAsset
  readFp _ := (0, 0)
  readModResource _ := none

def idsFiles (count : Nat) : List (ByteString × ModFile) :=
  [([0x61], .loaded (idsFile 0 count)), ([0x62], .loaded (idsFile count count)),
    ([0x63], .loaded (idsFile (2 * count) count)), ([0x64], .loaded (idsFile (3 * count) count))]

/-- What is made of an added asset. -/
def loadedAsset (fbFile : Int32) (name : ByteString) : ModResource :=
  let r := ebxResource name (hashQuickLower (toDecimal 2 ++ [0x5f] ++ name)) [0] (-1) 0
  { r with data := { r.data with fbFile } }

def loadedIds (path : ByteString) (fbFile : Int32) (first count : Nat) : LoadedMod where
  resources := ((List.range' first count).map nameOf).map (loadedAsset fbFile)
  path
  fbFile

theorem modResource_addedAsset (mod : RTFrostyMod) (fbFile : Int32) (name : ByteString) :
    mod.modResource noVanilla fbFile (addedAsset name) = some (loadedAsset fbFile name) := rfl

theorem filterMap_modResource (mod : RTFrostyMod) (fbFile : Int32) (names : List ByteString) :
    (names.map addedAsset).filterMap (mod.modResource noVanilla fbFile) =
      names.map (loadedAsset fbFile) := by
  induction names with
  | nil => rfl
  | cons name names ih =>
      rw [List.map_cons, List.filterMap_cons_some (modResource_addedAsset mod fbFile name), ih]
      rfl

theorem note_loadedAsset (fbFile : Int32) (name : ByteString) (loader : LoadedMods) :
    loader.note noVanilla (loadedAsset fbFile name) = loader := rfl

theorem foldl_note_loadedAsset (fbFile : Int32) (names : List ByteString) (loader : LoadedMods) :
    (names.map (loadedAsset fbFile)).foldl (fun loader r => loader.note noVanilla r) loader =
      loader := by
  induction names with
  | nil => rfl
  | cons name names ih => rw [List.map_cons, List.foldl_cons, note_loadedAsset, ih]

theorem mergeSort_loadedAsset (fbFile : Int32) (names : List ByteString) :
    (names.map (loadedAsset fbFile)).mergeSort leType = names.map (loadedAsset fbFile) := by
  refine List.mergeSort_of_pairwise (List.pairwise_map.mpr ?_)
  exact List.pairwise_of_forall fun _ _ => leType_of_type_eq rfl

theorem loadMods_idsFile {modCount : Nat} {fbFile : Int32}
    (h : getNextModFile modCount = .ok fbFile) {loader : LoadedMods}
    (hcount : loader.mods.length = modCount) (path : ByteString) (first count : Nat)
    (calls : List (ByteString × ModFile)) :
    LoadedMods.loadMods noVanilla ((path, .loaded (idsFile first count)) :: calls) loader =
      LoadedMods.loadMods noVanilla calls
        { loader with mods := loader.mods ++ [loadedIds path fbFile first count] } := by
  have hresources : (idsFile first count).resources.filterMap
      ((idsFile first count).modResource noVanilla fbFile) =
        ((List.range' first count).map nameOf).map (loadedAsset fbFile) :=
    filterMap_modResource _ fbFile _
  rw [LoadedMods.loadMods, List.foldlM_cons, LoadedMods.loadMod, hcount, h]
  simp only [bind, Except.bind, pure, Except.pure, hresources, foldl_note_loadedAsset,
    mergeSort_loadedAsset]
  rfl

/-- The loader with all the ids. -/
def idsLoader (count : Nat) : LoadedMods where
  mods := [loadedIds [0x61] 4105 0 count, loadedIds [0x62] 4106 count count,
    loadedIds [0x63] 4107 (2 * count) count, loadedIds [0x64] 4108 (3 * count) count]

theorem loadMods_idsFiles (count : Nat) :
    LoadedMods.loadMods noVanilla (idsFiles count) {} = .ok (idsLoader count) := by
  have h₀ : getNextModFile 0 = .ok 4105 := rfl
  have h₁ : getNextModFile 1 = .ok 4106 := rfl
  have h₂ : getNextModFile 2 = .ok 4107 := rfl
  have h₃ : getNextModFile 3 = .ok 4108 := rfl
  rw [idsFiles, loadMods_idsFile h₀, loadMods_idsFile h₁, loadMods_idsFile h₂, loadMods_idsFile h₃]
  all_goals rfl

def idsMods (count : Nat) : List KyberMod := (idsLoader count).mods.map (·.toKyberMod)

/-- The ids in the order of `byPriority`. -/
def orderedIds (count : Nat) : List Nat :=
  List.range' (3 * count) count ++ (List.range' (2 * count) count ++
    (List.range' count count ++ List.range' 0 count))

theorem nodup_orderedIds (count : Nat) : (orderedIds count).Nodup := by
  have happend {k : Nat} {ids : List Nat} (h : ids.Nodup) (hlt : ∀ id ∈ ids, id < k) :
      (List.range' k count ++ ids).Nodup :=
    List.nodup_append.mpr ⟨List.nodup_range', h, fun a ha b hb => by
      have := (List.mem_range'_1.mp ha).1
      have := hlt b hb
      omega⟩
  refine happend (happend (happend List.nodup_range' ?_) ?_) ?_
  all_goals
    intro id hid
    simp only [List.mem_append, List.mem_range'_1] at hid
    omega

theorem uniqueIds_idsMods (count : Nat) :
    (byPriority (idsMods count)).map (·.uniqueIdWithType) =
      (orderedIds count).map fun id => hashQuickLower (toDecimal 2 ++ [0x5f] ++ nameOf id) := by
  simp [byPriority, idsMods, idsLoader, loadedIds, orderedIds, Function.comp_def, loadedAsset,
    ebxResource]

theorem nodup_uniqueIds {count : Nat} (h : 4 * count ≤ 2 ^ 32) :
    ((byPriority (idsMods count)).map (·.uniqueIdWithType)).Nodup := by
  rw [uniqueIds_idsMods]
  have hlt : ∀ id ∈ orderedIds count, id < 2 ^ 32 := by
    intro id hid
    simp only [orderedIds, List.mem_append, List.mem_range'_1] at hid
    omega
  refine (nodup_orderedIds count).map_on fun id hid id' hid' hhash => ?_
  have hdecimal : toDecimal 2 ++ [0x5f] = [0x32, 0x5f] := by decide
  rw [hdecimal, hashQuickLower_nameOf (hlt id hid), hashQuickLower_nameOf (hlt id' hid')] at hhash
  exact (ofNat_inj_of_lt (hlt id hid) (hlt id' hid')).mp hhash

theorem length_byPriority_idsMods (count : Nat) :
    (byPriority (idsMods count)).length = 4 * count := by
  have hlength := congrArg List.length (uniqueIds_idsMods count)
  simp only [List.length_map, orderedIds, List.length_append, List.length_range'] at hlength
  omega

theorem mem_idsMods {count : Nat} {r : ModResource} (h : r ∈ byPriority (idsMods count)) :
    ∃ fbFile name, r = loadedAsset fbFile name := by
  obtain ⟨m, hm, hr⟩ := mem_byPriority.mp h
  obtain ⟨m', hm', rfl⟩ := List.mem_map.mp hm
  have hloaded : ∃ path fbFile first, m' = loadedIds path fbFile first count := by
    simp only [idsLoader, List.mem_cons, List.not_mem_nil, or_false] at hm'
    obtain rfl | rfl | rfl | rfl := hm' <;> exact ⟨_, _, _, rfl⟩
  obtain ⟨path, fbFile, first, rfl⟩ := hloaded
  obtain ⟨name, -, rfl⟩ := List.mem_map.mp hr
  exact ⟨fbFile, name, rfl⟩

theorem length_resourcesOf_idsMods {count : Nat} (h : 4 * count ≤ 2 ^ 32) :
    ((finalizeModLoads (idsMods count)).resourcesOf 0).length = 4 * count := by
  have hreq : requests 0 (sorted (idsMods count)) = sorted (idsMods count) := by
    rw [requests, List.filter_eq_self]
    intro r hr
    obtain ⟨fbFile, name, rfl⟩ := mem_idsMods (mem_sorted.mp hr)
    rfl
  have hnodup : ((sorted (idsMods count)).map (·.uniqueIdWithType)).Nodup :=
    (((List.mergeSort_perm _ leType).map _).nodup_iff).mpr (nodup_uniqueIds h)
  rw [resourcesOf_eq, List.length_map, hreq, firsts_eq_self _ hnodup, sorted,
    List.length_mergeSort, length_byPriority_idsMods]

theorem reserved_idsMods {count : Nat} (h : 4 * count = 2 ^ 32) :
    IdsDistinct (idsMods count) ∧
      ((finalizeModLoads (idsMods count)).reserved.getD 0 0).toNat
        ≠ ((finalizeModLoads (idsMods count)).resourcesOf 0).length := by
  have hnodup := nodup_uniqueIds (Nat.le_of_eq h)
  refine ⟨fun r hr r' hr' hid => ?_, ?_⟩
  · rw [List.inj_on_of_nodup_map hnodup hr hr' hid]
    exact ⟨rfl, rfl⟩
  · have hlt := ((finalizeModLoads (idsMods count)).reserved.getD 0 0).toNat_lt
    rw [length_resourcesOf_idsMods (Nat.le_of_eq h)]
    omega

/-- With all 2^32 ids in one bundle, the 32-bit count cannot be the length. -/
theorem reserved_wraps :
    LoadedMods.loadMods noVanilla (idsFiles (2 ^ 30)) {} = .ok (idsLoader (2 ^ 30)) ∧
      IdsDistinct (idsMods (2 ^ 30)) ∧
        ((finalizeModLoads (idsMods (2 ^ 30))).reserved.getD 0 0).toNat
          ≠ ((finalizeModLoads (idsMods (2 ^ 30))).resourcesOf 0).length :=
  ⟨loadMods_idsFiles _, reserved_idsMods (by decide)⟩

end Kyber.ModLoader
