import Mathlib.Data.List.Forall2
import Mathlib.Data.List.InsertIdx
import Mathlib.Logic.Function.Basic

/-!
# Lists in sections

Elements of several kinds in one list, one kind after the other. The sections are
a function of the kind; `flat` is the list, and `start` where a section begins in
it.

What is done to a section is done to the list at the place of the section:
`flat_update` cuts the list around one of them, and the lemmas about a replaced
element and about one more element at the end of a section follow from that.
-/

namespace Kyber.Lib

section Sections

variable {ι α β : Type}

/-- The sections one after the other. -/
def flat (order : List ι) (s : ι → List α) : List α := order.flatMap s

theorem flat_congr {order : List ι} {s s' : ι → List α} (h : ∀ k ∈ order, s k = s' k) :
    flat order s = flat order s' := List.flatMap_congr h

/-- The length of the list depends on the lengths of the sections only. -/
theorem length_flat_congr (order : List ι) {s : ι → List α} {s' : ι → List β}
    (h : ∀ k, (s k).length = (s' k).length) : (flat order s).length = (flat order s').length := by
  simp only [flat, List.length_flatMap, h]

theorem forall₂_flat {R : α → β → Prop} (order : List ι) {s : ι → List α} {s' : ι → List β}
    (h : ∀ k, List.Forall₂ R (s k) (s' k)) : List.Forall₂ R (flat order s) (flat order s') := by
  induction order with
  | nil => exact .nil
  | cons k order ih =>
      rw [flat, flat, List.flatMap_cons, List.flatMap_cons]
      exact List.rel_append (h k) ih

variable [DecidableEq ι]

/-- Where a section begins. -/
def start (order : List ι) (s : ι → List α) (k : ι) : Nat :=
  (flat (order.takeWhile (· ≠ k)) s).length

theorem start_congr {order : List ι} {s : ι → List α} {s' : ι → List β}
    (h : ∀ k, (s k).length = (s' k).length) (k : ι) : start order s k = start order s' k :=
  length_flat_congr _ h

theorem start_cons_of_ne {j k : ι} (h : j ≠ k) (order : List ι) (s : ι → List α) :
    start (j :: order) s k = (s j).length + start order s k := by
  rw [start, start, List.takeWhile_cons_of_pos (by simpa using h), flat, flat, List.flatMap_cons,
    List.length_append]

/-- What stands before a section and behind it does not depend on the section. -/
theorem flat_update {order : List ι} (hnodup : order.Nodup) (s : ι → List α) {k : ι}
    (hk : k ∈ order) :
    ∃ pre post : List α, pre.length = start order s k ∧
      ∀ l, flat order (Function.update s k l) = pre ++ l ++ post := by
  induction order with
  | nil => cases hk
  | cons j order ih =>
      obtain ⟨hj, hnodup⟩ := List.nodup_cons.mp hnodup
      by_cases hjk : j = k
      · subst hjk
        refine ⟨[], flat order s, by simp [start, flat], ?_⟩
        intro l
        have hrest : flat order (Function.update s j l) = flat order s := by
          refine flat_congr fun i hi => Function.update_of_ne ?_ _ _
          rintro rfl
          exact hj hi
        rw [flat, List.flatMap_cons, Function.update_self, List.nil_append]
        exact congrArg (l ++ ·) hrest
      · obtain ⟨pre, post, hlen, hflat⟩ :=
          ih hnodup ((List.mem_cons.mp hk).resolve_left (Ne.symm hjk))
        refine ⟨s j ++ pre, post, ?_, ?_⟩
        · rw [List.length_append, hlen, start_cons_of_ne hjk]
        · intro l
          rw [flat, List.flatMap_cons, Function.update_of_ne hjk, List.append_assoc,
            List.append_assoc, ← List.append_assoc pre, ← hflat l]
          rfl

theorem flat_split {order : List ι} (hnodup : order.Nodup) (s : ι → List α) {k : ι}
    (hk : k ∈ order) :
    ∃ pre post : List α, pre.length = start order s k ∧ flat order s = pre ++ s k ++ post ∧
      ∀ l, flat order (Function.update s k l) = pre ++ l ++ post := by
  obtain ⟨pre, post, hlen, hflat⟩ := flat_update hnodup s hk
  have hself := hflat (s k)
  rw [Function.update_eq_self] at hself
  exact ⟨pre, post, hlen, hself, hflat⟩

theorem start_add_length_le {order : List ι} (hnodup : order.Nodup) (s : ι → List α) {k : ι}
    (hk : k ∈ order) : start order s k + (s k).length ≤ (flat order s).length := by
  obtain ⟨pre, post, hlen, hflat, -⟩ := flat_split hnodup s hk
  rw [hflat, ← hlen, List.length_append, List.length_append]
  omega

theorem start_add_lt {order : List ι} (hnodup : order.Nodup) (s : ι → List α) {k : ι}
    (hk : k ∈ order) {i : Nat} (hi : i < (s k).length) :
    start order s k + i < (flat order s).length :=
  Nat.lt_of_lt_of_le (Nat.add_lt_add_left hi _) (start_add_length_le hnodup s hk)

/-- An element of a section is replaced. -/
theorem flat_set {order : List ι} (hnodup : order.Nodup) (s : ι → List α) {k : ι}
    (hk : k ∈ order) {i : Nat} (hi : i < (s k).length) (a : α) :
    flat order (Function.update s k ((s k).set i a))
      = (flat order s).set (start order s k + i) a := by
  obtain ⟨pre, post, hlen, hflat, hupdate⟩ := flat_split hnodup s hk
  rw [hupdate, hflat, ← hlen, List.append_assoc, List.append_assoc,
    List.set_append_right _ _ (Nat.le_add_right _ _), Nat.add_sub_cancel_left,
    List.set_append_left _ _ hi]

/-- A list of the right length is its own sections, one after the other. -/
theorem flat_slices {order : List ι} (hnodup : order.Nodup) (s : ι → List α) {l : List β}
    (hl : l.length = (flat order s).length) :
    flat order (fun k => (l.drop (start order s k)).take (s k).length) = l := by
  induction order generalizing l with
  | nil =>
      rw [List.length_eq_zero_iff.mp hl]
      rfl
  | cons j order ih =>
      obtain ⟨hj, hnodup⟩ := List.nodup_cons.mp hnodup
      rw [flat, List.flatMap_cons, List.length_append] at hl
      have hrest : (l.drop (s j).length).length = (flat order s).length := by
        rw [List.length_drop, hl, Nat.add_sub_cancel_left]
        rfl
      have hlater : flat order (fun k => (l.drop (start (j :: order) s k)).take (s k).length)
          = l.drop (s j).length := by
        rw [← ih hnodup hrest]
        refine flat_congr fun k hk => ?_
        have hne : j ≠ k := by
          rintro rfl
          exact hj hk
        rw [start_cons_of_ne hne, List.drop_drop]
      have hstart : start (j :: order) s j = 0 := by simp [start, flat]
      rw [flat, List.flatMap_cons, hstart, List.drop_zero]
      exact (congrArg _ hlater).trans (List.take_append_drop _ _)

theorem insertIdx_length_append (pre post : List α) (a : α) :
    (pre ++ post).insertIdx pre.length a = pre ++ a :: post := by
  induction pre with
  | nil => rfl
  | cons x pre ih =>
      rw [List.cons_append, List.length_cons, List.insertIdx_succ_cons, ih]
      rfl

/-- A section gets one more element, at its end. -/
theorem flat_concat {order : List ι} (hnodup : order.Nodup) (s : ι → List α) {k : ι}
    (hk : k ∈ order) (a : α) :
    flat order (Function.update s k (s k ++ [a]))
      = (flat order s).insertIdx (start order s k + (s k).length) a := by
  obtain ⟨pre, post, hlen, hflat, hupdate⟩ := flat_split hnodup s hk
  rw [hupdate, hflat, ← hlen, ← List.length_append, insertIdx_length_append]
  simp

end Sections

/-! Lists in lockstep. -/

theorem forall₂_set {α β : Type} {R : α → β → Prop} {l : List α} {l' : List β}
    (h : List.Forall₂ R l l') (i : Nat) {a : α} {b : β} (hab : R a b) :
    List.Forall₂ R (l.set i a) (l'.set i b) := by
  induction h generalizing i with
  | nil => exact .nil
  | cons hxy hrest ih =>
      cases i with
      | zero => exact .cons hab hrest
      | succ i => exact .cons hxy (ih i)

end Kyber.Lib
