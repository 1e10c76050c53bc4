import Kyber.Lib.Firsts
import Mathlib.Data.List.Perm.Basic

/-!
# Lists in groups and on pages

The elements of a list with the same key are a group, and groups come in the order of
their first elements. All groups, one after the other, are the list in another order, and
so are some of the groups and the elements whose keys are those of no such group.

A page is as many elements as there is room for. The pages of a list are the list.
-/

namespace Kyber.Lib

variable {α κ : Type}

section

variable [DecidableEq κ] (key : α → κ)

/-- The groups with their keys. -/
def groupListsBy (l : List α) : List (κ × List α) :=
  (firsts key l).map fun a => (key a, l.filter (key · = key a))

theorem nodup_keys_groupListsBy (l : List α) : ((groupListsBy key l).map Prod.fst).Nodup := by
  rw [groupListsBy, List.map_map]
  exact nodup_firsts key l

variable {key}

theorem mem_groupListsBy {l : List α} {g : κ × List α} :
    g ∈ groupListsBy key l ↔ g.1 ∈ l.map key ∧ g.2 = l.filter (key · = g.1) := by
  rw [groupListsBy, List.mem_map]
  constructor
  · rintro ⟨a, ha, rfl⟩
    exact ⟨List.mem_map_of_mem ((firsts_sublist key l).subset ha), rfl⟩
  · rintro ⟨hkey, hgroup⟩
    obtain ⟨a, ha, hkey⟩ := List.mem_map.mp (mem_map_firsts key |>.mpr hkey)
    refine ⟨a, ha, Prod.ext hkey ?_⟩
    rw [hgroup, hkey]

variable (key) in
/-- The elements with one of some keys, by their keys. -/
theorem flatMap_filter_perm {ks : List κ} (h : ks.Nodup) (l : List α) :
    (ks.flatMap fun k => l.filter (key · = k)).Perm (l.filter (key · ∈ ks)) := by
  induction ks with
  | nil => simp
  | cons k ks ih =>
      obtain ⟨hk, hks⟩ := List.nodup_cons.mp h
      have hsplit := List.filter_append_perm (fun a => decide (key a = k))
        (l.filter (key · ∈ k :: ks))
      have hfirst : (l.filter (key · ∈ k :: ks)).filter (fun a => decide (key a = k)) =
          l.filter (key · = k) := by
        rw [List.filter_filter]
        refine List.filter_congr fun a _ => ?_
        by_cases ha : key a = k <;> simp [ha]
      have hrest : (l.filter (key · ∈ k :: ks)).filter (fun a => !decide (key a = k)) =
          l.filter (key · ∈ ks) := by
        rw [List.filter_filter]
        refine List.filter_congr fun a _ => ?_
        by_cases ha : key a = k
        · simp [ha, hk]
        · simp [ha]
      rw [hfirst, hrest] at hsplit
      rw [List.flatMap_cons]
      exact (List.Perm.append_left _ (ih hks)).trans hsplit

end

/-- Leaving out some groups leaves out some keys. -/
theorem map_fst_filterMap_sublist {β γ : Type} (f : β → Option γ) (l : List (κ × β)) :
    ((l.filterMap fun entry => (f entry.2).map fun c => (entry.1, c)).map Prod.fst).Sublist
      (l.map Prod.fst) := by
  induction l with
  | nil => exact List.Sublist.slnil
  | cons entry l ih =>
      cases h : f entry.2 with
      | none =>
          rw [List.filterMap_cons_none (by rw [h]; rfl)]
          exact ih.cons _
      | some c =>
          rw [List.filterMap_cons_some (by rw [h]; rfl)]
          exact ih.cons_cons _

/-- A list is as long as a part of it only if the part is all of it. -/
theorem forall_of_length_filter_le {p q : α → Bool} {l : List α}
    (himp : ∀ a ∈ l, p a = true → q a = true)
    (hlength : (l.filter q).length ≤ (l.filter p).length) : ∀ a ∈ l, q a = true → p a = true := by
  have hsub : (l.filter p).Sublist (l.filter q) := by
    rw [show l.filter p = (l.filter q).filter p from ?_]
    · exact List.filter_sublist
    · rw [List.filter_filter]
      refine List.filter_congr fun a ha => ?_
      have := himp a ha
      cases hp : p a <;> simp_all
  intro a ha hq
  have hmem : a ∈ l.filter q := List.mem_filter.mpr ⟨ha, hq⟩
  rw [← hsub.eq_of_length_le hlength] at hmem
  exact (List.mem_filter.mp hmem).2

/-- The page with a number, counted from 0. -/
def page (size : Nat) (l : List α) (i : Nat) : List α := (l.drop (i * size)).take size

@[simp] theorem page_nil (size i : Nat) : page size ([] : List α) i = [] := by
  rw [page, List.drop_nil, List.take_nil]

theorem flatMap_page (size : Nat) (l : List α) (m : Nat) :
    (List.range m).flatMap (page size l) = l.take (m * size) := by
  induction m with
  | zero => simp
  | succ m ih =>
      rw [List.range_succ, List.flatMap_append, ih, List.flatMap_singleton, page, ← List.take_add,
        Nat.succ_mul]

/-- As many pages as are needed. -/
theorem flatMap_page_of_le {size m : Nat} {l : List α} (h : l.length ≤ m * size) :
    (List.range m).flatMap (page size l) = l := by
  rw [flatMap_page, List.take_of_length_le h]

end Kyber.Lib
