import Mathlib.Data.List.Induction
import Mathlib.Data.List.Nodup
import Mathlib.Data.List.Pairwise

/-!
# The first of each key

A loop that walks over a list and skips what it has seen before keeps the first
element of each key. `firsts` is that list without the loop, and the lemmas say
how it answers the questions such loops are written for: which keys are there,
that none is there twice, and which element stands for a key.

A stable sort keeps the first element of a key where all elements of the key
compare equal. `filter_mergeSort` is the form of stability this rests on.
-/

namespace Kyber.Lib

section Firsts

variable {α κ : Type} [DecidableEq κ] (key : α → κ)

/-- The elements of a list whose key has not occurred before. -/
def firsts : List α → List α
  | [] => []
  | a :: l => a :: (firsts l).filter fun b => key b ≠ key a

theorem firsts_sublist (l : List α) : (firsts key l).Sublist l := by
  induction l with
  | nil => exact .slnil
  | cons a l ih => exact (List.filter_sublist.trans ih).cons_cons a

theorem nodup_firsts (l : List α) : ((firsts key l).map key).Nodup := by
  induction l with
  | nil => exact List.nodup_nil
  | cons a l ih =>
      rw [firsts, List.map_cons, List.nodup_cons]
      refine ⟨?_, ih.sublist (List.filter_sublist.map key)⟩
      intro h
      obtain ⟨b, hb, he⟩ := List.mem_map.mp h
      rw [List.mem_filter] at hb
      simp [he] at hb

theorem mem_map_firsts {l : List α} {k : κ} : k ∈ (firsts key l).map key ↔ k ∈ l.map key := by
  induction l with
  | nil => rfl
  | cons a l ih =>
      rw [firsts, List.map_cons, List.map_cons, List.mem_cons, List.mem_cons, ← ih]
      by_cases h : k = key a
      · simp [h]
      · simp only [h, false_or, List.mem_map, List.mem_filter, decide_eq_true_eq]
        constructor
        · rintro ⟨b, ⟨hb, -⟩, rfl⟩
          exact ⟨b, hb, rfl⟩
        · rintro ⟨b, hb, rfl⟩
          exact ⟨b, ⟨hb, h⟩, rfl⟩

/-- A filter that agrees on elements of one key can be applied before or after. -/
theorem filter_firsts {p : α → Bool} {l : List α}
    (h : ∀ a ∈ l, ∀ b ∈ l, key a = key b → p a = p b) :
    (firsts key l).filter p = firsts key (l.filter p) := by
  induction l with
  | nil => rfl
  | cons a l ih =>
      have hl : ∀ b ∈ firsts key l, b ∈ l := fun b hb => (firsts_sublist key l).subset hb
      have ih := ih fun b hb c hc => h b (List.mem_cons_of_mem a hb) c (List.mem_cons_of_mem a hc)
      rw [firsts, List.filter_cons, List.filter_cons, List.filter_filter]
      split
      next =>
        rw [firsts, ← ih, List.filter_filter]
        simp only [Bool.and_comm]
      next hp =>
        rw [← ih]
        refine List.filter_congr fun b hb => ?_
        by_cases hk : key b = key a
        · have := h b (List.mem_cons_of_mem a (hl b hb)) a List.mem_cons_self hk
          simp [this, hp]
        · simp [hk]

/-- Nothing is dropped from a list of distinct keys. -/
theorem firsts_eq_self {l : List α} (h : (l.map key).Nodup) : firsts key l = l := by
  induction l with
  | nil => rfl
  | cons a l ih =>
      rw [List.map_cons, List.nodup_cons] at h
      rw [firsts, ih h.2, List.filter_eq_self.mpr]
      intro b hb
      rw [decide_eq_true_eq]
      exact fun he => h.1 (List.mem_map.mpr ⟨b, hb, he⟩)

theorem firsts_concat (l : List α) (a : α) :
    firsts key (l ++ [a])
      = if key a ∈ l.map key then firsts key l else firsts key l ++ [a] := by
  induction l with
  | nil => rfl
  | cons b l ih =>
      rw [List.cons_append, firsts, ih, firsts, List.map_cons]
      by_cases hl : key a ∈ l.map key
      · rw [if_pos hl, if_pos (List.mem_cons_of_mem _ hl)]
      · rw [if_neg hl, List.filter_append]
        by_cases hb : key a = key b
        · simp [hb]
        · rw [if_neg (by simp [hb, hl]), List.filter_cons_of_pos (by simpa using hb)]
          rfl

/-- What comes later is put behind. -/
theorem firsts_prefix (l more : List α) : firsts key l <+: firsts key (l ++ more) := by
  induction more generalizing l with
  | nil => simp
  | cons a more ih =>
      have h := ih (l ++ [a])
      rw [List.append_assoc, List.singleton_append] at h
      refine List.IsPrefix.trans ?_ h
      rw [firsts_concat]
      split
      · exact List.prefix_rfl
      · exact List.prefix_append _ _

/-- The loop that puts a key behind the others if it is not there. -/
theorem foldl_concat_eq_firsts (l : List α) :
    l.foldl (fun seen a => if seen.contains (key a) then seen else seen ++ [key a]) []
      = firsts id (l.map key) := by
  induction l using List.reverseRecOn with
  | nil => rfl
  | append_singleton l a ih =>
      have hmem : key a ∈ firsts id (l.map key) ↔ id (key a) ∈ (l.map key).map id := by
        rw [← mem_map_firsts, List.map_id]
        rfl
      rw [List.foldl_concat, ih, List.map_append, List.map_singleton, firsts_concat]
      exact if_congr (List.contains_iff_mem.trans hmem) rfl rfl

/-- Keys that tell the same elements apart keep the same ones. -/
theorem firsts_congr {κ' : Type} [DecidableEq κ'] {key' : α → κ'} {l : List α}
    (h : ∀ a ∈ l, ∀ b ∈ l, key a = key b ↔ key' a = key' b) : firsts key l = firsts key' l := by
  induction l with
  | nil => rfl
  | cons a l ih =>
      have hl := ih fun b hb c hc => h b (List.mem_cons_of_mem a hb) c (List.mem_cons_of_mem a hc)
      rw [firsts, firsts, hl]
      congr 1
      refine List.filter_congr fun b hb => ?_
      have hb := (firsts_sublist key' l).subset hb
      rw [decide_eq_decide, not_iff_not]
      exact h b (List.mem_cons_of_mem a hb) a List.mem_cons_self

theorem firsts_map {β : Type} (f : β → α) (l : List β) :
    firsts key (l.map f) = (firsts (fun b => key (f b)) l).map f := by
  induction l with
  | nil => rfl
  | cons b l ih =>
      rw [List.map_cons, firsts, firsts, List.map_cons, ih, List.filter_map]
      rfl

end Firsts

/-! ## Stable sorting -/

/-- Sorting keeps the order of elements that compare equal. -/
theorem filter_mergeSort {α : Type} {le : α → α → Bool}
    (trans : ∀ a b c, le a b → le b c → le a c) (total : ∀ a b, le a b || le b a)
    {p : α → Bool} {l : List α} (h : ∀ a ∈ l, ∀ b ∈ l, p a → p b → le a b) :
    (l.mergeSort le).filter p = l.filter p := by
  have hpw : (l.filter p).Pairwise fun a b => le a b = true := by
    refine List.pairwise_of_forall_mem_list fun a ha b hb => ?_
    rw [List.mem_filter] at ha hb
    exact h a ha.1 b hb.1 ha.2 hb.2
  have hsub : (l.filter p).Sublist (l.mergeSort le) :=
    List.sublist_mergeSort trans total hpw List.filter_sublist
  have hsub' : (l.filter p).Sublist ((l.mergeSort le).filter p) := by
    simpa [List.filter_filter] using hsub.filter p
  have hlen := ((List.mergeSort_perm l le).filter p).length_eq
  exact (hsub'.eq_of_length hlen.symm).symm

/-- What is found first is found first among fewer. -/
theorem find?_and {α : Type} {p q : α → Bool} {l : List α} {a : α} (h : l.find? p = some a)
    (hq : q a = true) : l.find? (fun x => p x && q x) = some a := by
  obtain ⟨hp, front, back, heq, hfront⟩ := List.find?_eq_some_iff_append.mp h
  have hpq : (p a && q a) = true := by rw [hp, hq, Bool.true_and]
  refine List.find?_eq_some_iff_append.mpr ⟨hpq, front, back, heq, fun x hx => ?_⟩
  rw [Bool.not_and, hfront x hx, Bool.true_or]

/-- What is found first in a sorted list is not behind anything else that could be. -/
theorem le_of_find?_eq_some {α : Type} {le : α → α → Bool} (total : ∀ a b, le a b || le b a)
    {p : α → Bool} {l : List α} (hl : l.Pairwise fun a b => le a b = true) {a b : α}
    (h : l.find? p = some a) (hb : b ∈ l) (hpb : p b = true) : le a b = true := by
  obtain ⟨-, front, back, rfl, hfront⟩ := List.find?_eq_some_iff_append.mp h
  rcases List.mem_append.mp hb with hmem | hmem
  · have hno := hfront b hmem
    rw [hpb] at hno
    cases hno
  · rcases List.mem_cons.mp hmem with rfl | hmem
    · simpa using total b b
    · exact (List.pairwise_cons.mp (List.pairwise_append.mp hl).2.1).1 b hmem

/-- Sorting keeps what is found first exactly if nothing that could be found is less. -/
theorem find?_mergeSort_iff {α : Type} {le : α → α → Bool}
    (trans : ∀ a b c, le a b → le b c → le a c) (total : ∀ a b, le a b || le b a)
    {p : α → Bool} {l : List α} {a : α} (h : l.find? p = some a) :
    (l.mergeSort le).find? p = some a ↔ ∀ b ∈ l, p b = true → le a b = true := by
  have hsorted := List.pairwise_mergeSort trans total l
  constructor
  · intro hfirst b hb hpb
    exact le_of_find?_eq_some total hsorted hfirst (List.mem_mergeSort.mpr hb) hpb
  · intro hleast
    have hpa : p a = true := List.find?_some h
    have ha : a ∈ l := List.mem_of_find?_eq_some h
    obtain ⟨b, hb⟩ := Option.isSome_iff_exists.mp
      (List.find?_isSome.mpr ⟨a, List.mem_mergeSort.mpr ha, hpa⟩)
    have hle : le b a = true :=
      le_of_find?_eq_some total hsorted hb (List.mem_mergeSort.mpr ha) hpa
    have hge : le a b = true :=
      hleast b (List.mem_mergeSort.mp (List.mem_of_find?_eq_some hb)) (List.find?_some hb)
    -- Among those that compare equal to `a`, the order is kept.
    let q := fun x => le x a && le a x
    have hfilter : (l.mergeSort le).filter (fun x => p x && q x)
        = l.filter (fun x => p x && q x) := by
      refine filter_mergeSort trans total fun x _ y _ hx hy => ?_
      simp only [q, Bool.and_eq_true] at hx hy
      exact trans x a y hx.2.1 hy.2.2
    have hself : le a a = true := trans a b a hge hle
    have hfirst := find?_and (q := q) hb (by simp only [q, hle, hge, Bool.and_self])
    have hfirst' := find?_and (q := q) h (by simp only [q, hself, Bool.and_self])
    rw [← List.head?_filter] at hfirst hfirst'
    rw [hb, ← hfirst, hfilter, hfirst']

/-- What is found first in a sorted list: the least that could be, and of those that compare
equal the first. -/
theorem find?_mergeSort_eq_some_iff {α : Type} {le : α → α → Bool}
    (trans : ∀ a b c, le a b → le b c → le a c) (total : ∀ a b, le a b || le b a)
    {p : α → Bool} {l : List α} {a : α} :
    (l.mergeSort le).find? p = some a ↔ p a = true ∧ ∃ front back, l = front ++ a :: back ∧
      (∀ b ∈ l, p b = true → le a b = true) ∧ ∀ b ∈ front, p b = true → le b a = false := by
  -- Whatever is found is found by this test in both lists.
  let q := fun x y => le x y && le y x
  have hfilter : ∀ x, (l.mergeSort le).find? (fun y => p y && q y x)
      = l.find? (fun y => p y && q y x) := by
    intro x
    rw [← List.head?_filter, ← List.head?_filter]
    congr 1
    refine filter_mergeSort trans total fun y _ z _ hy hz => ?_
    simp only [q, Bool.and_eq_true] at hy hz
    exact trans y x z hy.2.1 hz.2.2
  have hself : ∀ x, q x x = true := by
    intro x
    have := total x x
    simpa [q] using this
  constructor
  · intro hfirst
    have hpa : p a = true := List.find?_some hfirst
    have hleast : ∀ b ∈ l, p b = true → le a b = true := fun b hb =>
      le_of_find?_eq_some total (List.pairwise_mergeSort trans total l) hfirst
        (List.mem_mergeSort.mpr hb)
    have hfind := find?_and (q := fun y => q y a) hfirst (hself a)
    rw [hfilter] at hfind
    obtain ⟨-, front, back, rfl, hfront⟩ := List.find?_eq_some_iff_append.mp hfind
    refine ⟨hpa, front, back, rfl, hleast, fun b hb hpb => ?_⟩
    have hno := hfront b hb
    rw [hpb, Bool.true_and, Bool.not_eq_true'] at hno
    simpa [q, hleast b (List.mem_append_left _ hb) hpb] using hno
  · rintro ⟨hpa, front, back, rfl, hleast, hfront⟩
    have ha : a ∈ front ++ a :: back := List.mem_append_right _ List.mem_cons_self
    obtain ⟨b, hb⟩ := Option.isSome_iff_exists.mp
      (List.find?_isSome.mpr ⟨a, List.mem_mergeSort.mpr ha, hpa⟩)
    have hpb : p b = true := List.find?_some hb
    have hab : le a b = true := hleast b (List.mem_mergeSort.mp (List.mem_of_find?_eq_some hb)) hpb
    have hba : le b a = true :=
      le_of_find?_eq_some total (List.pairwise_mergeSort trans total _) hb
        (List.mem_mergeSort.mpr ha) hpa
    have hfind := find?_and (q := fun y => q y a) hb (by simp only [q, hab, hba, Bool.and_self])
    rw [hfilter] at hfind
    have hfind' : (front ++ a :: back).find? (fun y => p y && q y a) = some a := by
      refine List.find?_eq_some_iff_append.mpr ⟨by rw [hpa, hself]; rfl, front, back, rfl, ?_⟩
      intro c hc
      cases hpc : p c with
      | false => rfl
      | true => simp [q, hfront c hc hpc]
    rw [hb, ← hfind, hfind']

end Kyber.Lib
