import Std.Data.TreeMap.Lemmas
import Std.Data.TreeSet.Lemmas
import Mathlib.Logic.Function.Basic

/-!
# Tree maps over keys that compare lawfully

The library states what an insertion does in terms of the comparison of the
keys. Where equal comparison is equality, as it is for machine words and byte
strings, the same facts read better in terms of the keys themselves.
-/

namespace Kyber.Lib

variable {κ ν : Type} [Ord κ] [Std.TransOrd κ] [Std.LawfulEqOrd κ]

theorem getElem?_insert_eq [DecidableEq κ] (t : Std.TreeMap κ ν) (k a : κ) (v : ν) :
    (t.insert k v)[a]? = if a = k then some v else t[a]? := by
  rw [Std.TreeMap.getElem?_insert]
  by_cases h : a = k
  · simp [h]
  · have hne : ¬ compare k a = .eq := fun hc => h (Std.LawfulEqCmp.eq_of_compare hc).symm
    simp [h, hne]

theorem getD_insert_eq [DecidableEq κ] (t : Std.TreeMap κ ν) (k a : κ) (v d : ν) :
    (t.insert k v).getD a d = if a = k then v else t.getD a d := by
  rw [Std.TreeMap.getD_eq_getD_getElem?, getElem?_insert_eq, Std.TreeMap.getD_eq_getD_getElem?]
  split <;> rfl

theorem mem_insert_iff (t : Std.TreeSet κ) (k a : κ) : a ∈ t.insert k ↔ a = k ∨ a ∈ t := by
  rw [Std.TreeSet.mem_insert, Std.compare_eq_iff_eq]
  simp [eq_comm]

theorem keys_nodup (t : Std.TreeMap κ ν) : (t.toList.map Prod.fst).Nodup := by
  rw [List.Nodup, List.pairwise_map]
  refine t.distinct_keys_toList.imp ?_
  intro a b h hab
  exact h (Std.compare_eq_iff_eq.mpr hab)

/-! A map into which a list is put. -/

section

variable {β : Type} {key : β → κ} {value : β → ν}

theorem getElem?_foldl_insert_of_notMem [DecidableEq κ] {l : List β} {k : κ}
    (h : k ∉ l.map key) (t : Std.TreeMap κ ν) :
    (l.foldl (fun t b => t.insert (key b) (value b)) t)[k]? = t[k]? := by
  induction l generalizing t with
  | nil => rfl
  | cons b l ih =>
      rw [List.map_cons, List.mem_cons, not_or] at h
      rw [List.foldl_cons, ih h.2, getElem?_insert_eq, if_neg h.1]

variable (key value) in
theorem getElem?_foldl_insert_of_mem [DecidableEq κ] {l : List β} (h : (l.map key).Nodup)
    {b : β} (hb : b ∈ l) (t : Std.TreeMap κ ν) :
    (l.foldl (fun t b => t.insert (key b) (value b)) t)[key b]? = some (value b) := by
  induction l generalizing t with
  | nil => cases hb
  | cons a l ih =>
      obtain ⟨hnot, hl⟩ := List.nodup_cons.mp h
      rw [List.foldl_cons]
      obtain rfl | hb := List.mem_cons.mp hb
      · rw [getElem?_foldl_insert_of_notMem hnot, getElem?_insert_eq, if_pos rfl]
      · exact ih hl hb _

end

/-! A map as the function of its keys, with a view of its values. -/

theorem update_insert [DecidableEq κ] {ω : Type} (m : Std.TreeMap κ ν) (k : κ) (v : ν)
    (f : ν → ω) :
    (fun i => ((m.insert k v)[i]?).map f)
      = Function.update (fun i => (m[i]?).map f) k (some (f v)) := by
  funext i
  rw [getElem?_insert_eq]
  by_cases h : i = k
  · subst h
    simp
  · rw [Function.update_of_ne h, if_neg h]

theorem getElem?_erase_eq [DecidableEq κ] (t : Std.TreeMap κ ν) (k a : κ) :
    (t.erase k)[a]? = if a = k then none else t[a]? := by
  rw [Std.TreeMap.getElem?_erase]
  by_cases h : a = k
  · simp [h]
  · have hne : ¬ compare k a = .eq := fun hc => h (Std.LawfulEqCmp.eq_of_compare hc).symm
    simp [h, hne]

theorem update_erase [DecidableEq κ] {ω : Type} (m : Std.TreeMap κ ν) (k : κ) (f : ν → ω) :
    (fun i => ((m.erase k)[i]?).map f) = Function.update (fun i => (m[i]?).map f) k none := by
  funext i
  rw [getElem?_erase_eq]
  by_cases h : i = k
  · subst h
    simp
  · rw [Function.update_of_ne h, if_neg h]

/-- A map with one key is a list of one entry. -/
theorem toList_eq_singleton [DecidableEq κ] {t : Std.TreeMap κ ν} {k : κ} {v : ν}
    (h : ∀ a, t[a]? = if a = k then some v else none) : t.toList = [(k, v)] := by
  have hnodup : t.toList.Nodup :=
    (List.pairwise_map.mp (keys_nodup t)).imp fun hne hab => hne (congrArg Prod.fst hab)
  refine List.perm_singleton.mp ((List.perm_ext_iff_of_nodup hnodup
    (List.pairwise_singleton _ _)).mpr fun entry => ?_)
  obtain ⟨a, b⟩ := entry
  rw [Std.TreeMap.mem_toList_iff_getElem?_eq_some, h, List.mem_singleton, Prod.mk.injEq]
  constructor
  · intro hab
    split at hab
    · next ha => exact ⟨ha, (Option.some.inj hab).symm⟩
    · cases hab
  · intro hab
    rw [if_pos hab.1, hab.2]

end Kyber.Lib
