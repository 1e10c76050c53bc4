import Mathlib.Data.List.Nodup

/-!
# Lists with one element for each key

What is put into such a list takes the place of what has the same key. After a list of
elements the last one of each key is there, and what was there before only if none of them
has its key.
-/

namespace Kyber.Lib

variable {α κ : Type} [DecidableEq κ] (key : α → κ)

def supersede (l : List α) (a : α) : List α := l.filter (fun b => key b ≠ key a) ++ [a]

/-- The last element that has the key. -/
def lastOf (as : List α) (k : κ) : Option α := as.reverse.find? fun a => key a = k

/-- The last elements of all keys. -/
def keepLast : List α → List α
  | [] => []
  | a :: as => if as.any (fun b => key b = key a) then keepLast as else a :: keepLast as

section

variable {key}

theorem mem_supersede {l : List α} {a b : α} :
    b ∈ supersede key l a ↔ b = a ∨ key b ≠ key a ∧ b ∈ l := by
  rw [supersede, List.mem_append, List.mem_filter, List.mem_singleton, decide_eq_true_iff]
  tauto

theorem nodup_supersede {l : List α} (h : (l.map key).Nodup) (a : α) :
    ((supersede key l a).map key).Nodup := by
  rw [supersede, List.map_append, List.map_singleton, List.nodup_append_comm,
    List.singleton_append, List.nodup_cons]
  refine ⟨fun hmem => ?_, h.sublist (List.filter_sublist.map key)⟩
  obtain ⟨b, hb, hkey⟩ := List.mem_map.mp hmem
  exact decide_eq_true_iff.mp (List.mem_filter.mp hb).2 hkey

theorem nodup_foldl_supersede {l : List α} (h : (l.map key).Nodup) (as : List α) :
    ((as.foldl (supersede key) l).map key).Nodup := by
  induction as generalizing l with
  | nil => exact h
  | cons a as ih => exact ih (nodup_supersede h a)

theorem lastOf_cons (a : α) (as : List α) (k : κ) :
    lastOf key (a :: as) k = (lastOf key as k).or (if key a = k then some a else none) := by
  rw [lastOf, List.reverse_cons, List.find?_append, List.find?_singleton]
  simp only [decide_eq_true_eq]
  rfl

theorem mem_foldl_supersede {as l : List α} {b : α} :
    b ∈ as.foldl (supersede key) l ↔
      lastOf key as (key b) = some b ∨ lastOf key as (key b) = none ∧ b ∈ l := by
  induction as generalizing l with
  | nil => simp [lastOf]
  | cons a as ih =>
      rw [List.foldl_cons, ih, mem_supersede, lastOf_cons]
      cases lastOf key as (key b) with
      | some c => simp
      | none =>
          by_cases h : key a = key b
          · simp [h, eq_comm]
          · simp only [if_neg h, Option.none_or]
            have hne : b ≠ a := fun hb => h (congrArg key hb).symm
            have hkey : key b ≠ key a := fun hk => h hk.symm
            simp [hne, hkey]

theorem mem_of_lastOf {as : List α} {k : κ} {a : α} (h : lastOf key as k = some a) :
    a ∈ as ∧ key a = k :=
  ⟨List.mem_reverse.mp (List.mem_of_find?_eq_some h), by simpa using List.find?_some h⟩

theorem lastOf_eq_none_iff {as : List α} {k : κ} :
    lastOf key as k = none ↔ ∀ a ∈ as, key a ≠ k := by
  simp [lastOf, List.find?_eq_none]

theorem keepLast_of_nodup {as : List α} (h : (as.map key).Nodup) : keepLast key as = as := by
  induction as with
  | nil => rfl
  | cons a as ih =>
      obtain ⟨hnot, has⟩ := List.nodup_cons.mp h
      have hany : ¬ as.any (fun b => key b = key a) = true := by
        intro hex
        obtain ⟨b, hb, hkey⟩ := List.any_eq_true.mp hex
        exact hnot (List.mem_map.mpr ⟨b, hb, of_decide_eq_true hkey⟩)
      rw [keepLast, if_neg hany, ih has]

/-- What was there before goes in front, without what has been superseded. -/
theorem foldl_supersede (l as : List α) :
    as.foldl (supersede key) l =
      l.filter (fun b => as.all fun a => key a ≠ key b) ++ keepLast key as := by
  induction as generalizing l with
  | nil => simp [keepLast]
  | cons a as ih =>
      have hold : (l.filter (fun b => key b ≠ key a)).filter (fun b => as.all fun a => key a ≠ key b) =
          l.filter fun b => (a :: as).all fun a => key a ≠ key b := by
        rw [List.filter_filter]
        refine List.filter_congr fun b _ => ?_
        rw [List.all_cons, Bool.and_comm]
        simp only [ne_comm]
      have hnew : [a].filter (fun b => as.all fun a => key a ≠ key b) ++ keepLast key as =
          keepLast key (a :: as) := by
        rw [keepLast, List.filter_singleton]
        by_cases h : as.any (fun b => key b = key a) = true
        · have hall : (as.all fun b => key b ≠ key a) = false := by simpa using h
          rw [if_pos h, hall]
          rfl
        · have hall : (as.all fun b => key b ≠ key a) = true := by simpa using h
          rw [if_neg h, hall]
          rfl
      rw [List.foldl_cons, ih, supersede, List.filter_append, hold, List.append_assoc, hnew]

theorem lastOf_map {β : Type} (f : β → α) (bs : List β) (k : κ) :
    lastOf key (bs.map f) k = (lastOf (fun b => key (f b)) bs k).map f := by
  rw [lastOf, ← List.map_reverse, List.find?_map]
  rfl

end

end Kyber.Lib
