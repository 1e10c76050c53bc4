import Mathlib.Data.List.Basic
import Mathlib.Logic.Function.Basic

/-!
# Members that point to arrays

An object has pointers to other objects of one type, and each of those holds an array. A pointer
can be null, and two of them can be to the same object, so that replacing the array of one member
replaces that of another. `Apart` says that this is not so for two members, and it is all that is
needed for what a series of replacements leaves (`array_assignAll_of_mem`,
`array_assignAll_of_notMem`). A member that is null is apart from all others: it is given an
object of its own first.
-/

namespace Kyber.Lib

/-- Pointers, one for each of `φ`, and the arrays of the objects that there are. No pointer is to
an object that there is not. -/
structure Members (φ β : Type) where
  member : φ → Option Nat
  objects : List (List β)
  valid : ∀ f p, member f = some p → p < objects.length

namespace Members

variable {φ β : Type}

/-- The array that a member points to. -/
def array (m : Members φ β) (f : φ) : Option (List β) := (m.member f).bind (m.objects[·]?)

/-- The two members do not point to one object. -/
def Apart (m : Members φ β) (f g : φ) : Prop := m.member f = none ∨ m.member f ≠ m.member g

variable [DecidableEq φ]

/-- Make a new object for the member if it is null, and replace the array. -/
def assign (m : Members φ β) (f : φ) (xs : List β) : Members φ β :=
  match m.member f with
  | some p =>
      { member := m.member
        objects := m.objects.set p xs
        valid := fun g q hq => by
          rw [List.length_set]
          exact m.valid g q hq }
  | none =>
      { member := Function.update m.member f (some m.objects.length)
        objects := m.objects ++ [xs]
        valid := fun g q hq => by
          rw [List.length_append, List.length_singleton]
          by_cases hg : g = f
          · rw [hg, Function.update_self, Option.some.injEq] at hq
            omega
          · rw [Function.update_of_ne hg] at hq
            exact Nat.lt_succ_of_lt (m.valid g q hq) }

/-- Replace the arrays of some members, one after the other. -/
def assignAll (m : Members φ β) (ws : List (φ × List β)) : Members φ β :=
  ws.foldl (fun m w => m.assign w.1 w.2) m

variable {m : Members φ β} {f g : φ} {xs : List β}

theorem assign_of_some {p : Nat} (h : m.member f = some p) (xs : List β) :
    (m.assign f xs).member = m.member ∧ (m.assign f xs).objects = m.objects.set p xs := by
  rw [assign]
  split
  · next q hq =>
      rw [h, Option.some.injEq] at hq
      exact ⟨rfl, by rw [hq]⟩
  · next hnone =>
      rw [h] at hnone
      cases hnone

theorem assign_of_none (h : m.member f = none) (xs : List β) :
    (m.assign f xs).member = Function.update m.member f (some m.objects.length) ∧
      (m.assign f xs).objects = m.objects ++ [xs] := by
  rw [assign]
  split
  · next q hq =>
      rw [h] at hq
      cases hq
  · exact ⟨rfl, rfl⟩

theorem member_assign_of_ne (h : g ≠ f) : (m.assign f xs).member g = m.member g := by
  cases hf : m.member f with
  | some p => rw [(assign_of_some hf xs).1]
  | none => rw [(assign_of_none hf xs).1, Function.update_of_ne h]

theorem array_assign_self : (m.assign f xs).array f = some xs := by
  cases hf : m.member f with
  | some p =>
      obtain ⟨hmember, hobjects⟩ := assign_of_some hf xs
      rw [array, hmember, hf, hobjects]
      exact List.getElem?_set_self (m.valid f p hf)
  | none =>
      obtain ⟨hmember, hobjects⟩ := assign_of_none hf xs
      rw [array, hmember, Function.update_self, hobjects]
      exact List.getElem?_concat_length

/-- A member that is apart keeps its array. -/
theorem array_assign_of_apart (h : m.Apart f g) (hne : g ≠ f) :
    (m.assign f xs).array g = m.array g := by
  cases hg : m.member g with
  | none => rw [array, array, member_assign_of_ne hne, hg]; rfl
  | some q =>
      rw [array, array, member_assign_of_ne hne, hg, Option.bind_some, Option.bind_some]
      cases hf : m.member f with
      | some p =>
          rw [(assign_of_some hf xs).2]
          refine List.getElem?_set_ne ?_
          rintro rfl
          obtain h | h := h
          · rw [hf] at h
            cases h
          · exact h (hf.trans hg.symm)
      | none =>
          rw [(assign_of_none hf xs).2]
          exact List.getElem?_append_left (m.valid g q hg)

/-- Members stay apart. -/
theorem Apart.assign (h : m.Apart f g) (hne : f ≠ g) (k : φ) (xs : List β) :
    (m.assign k xs).Apart f g := by
  cases hk : m.member k with
  | some p =>
      rw [Apart, (assign_of_some hk xs).1]
      exact h
  | none =>
      rw [Apart, (assign_of_none hk xs).1]
      by_cases hf : f = k
      · subst hf
        refine .inr ?_
        rw [Function.update_self, Function.update_of_ne hne.symm]
        intro hg
        exact absurd (m.valid g _ hg.symm) (Nat.lt_irrefl _)
      · rw [Function.update_of_ne hf]
        by_cases hg : g = k
        · subst hg
          rw [Function.update_self]
          by_cases hnone : m.member f = none
          · exact .inl hnone
          · refine .inr ?_
            intro hsome
            exact absurd (m.valid f _ hsome) (Nat.lt_irrefl _)
        · rw [Function.update_of_ne hg]
          exact h

/-- What is not among the members that are replaced stays, if they are apart from it. -/
theorem array_assignAll_of_notMem {ws : List (φ × List β)} (hg : g ∉ ws.map Prod.fst)
    (h : ∀ w ∈ ws, m.Apart w.1 g) :
    (m.assignAll ws).member g = m.member g ∧ (m.assignAll ws).array g = m.array g := by
  induction ws generalizing m with
  | nil => exact ⟨rfl, rfl⟩
  | cons w ws ih =>
      rw [List.map_cons, List.mem_cons, not_or] at hg
      have hrest : ∀ v ∈ ws, (m.assign w.1 w.2).Apart v.1 g := by
        intro v hv
        refine (h v (List.mem_cons_of_mem w hv)).assign ?_ _ _
        rintro rfl
        exact hg.2 (List.mem_map_of_mem hv)
      obtain ⟨hmember, harray⟩ := ih hg.2 hrest
      exact ⟨hmember.trans (member_assign_of_ne hg.1),
        harray.trans (array_assign_of_apart (h w List.mem_cons_self) hg.1)⟩

/-- A member that is replaced has its array in the end, if those behind it are apart from it. -/
theorem array_assignAll_of_mem {ws : List (φ × List β)} (hws : (ws.map Prod.fst).Nodup)
    (h : ∀ w ∈ ws, ∀ g, w.1 ≠ g → m.Apart w.1 g) {w : φ × List β} (hw : w ∈ ws) :
    (m.assignAll ws).array w.1 = some w.2 := by
  induction ws generalizing m with
  | nil => cases hw
  | cons v ws ih =>
      obtain ⟨hnot, hws⟩ := List.nodup_cons.mp hws
      obtain rfl | hw := List.mem_cons.mp hw
      · have hrest : ∀ u ∈ ws, (m.assign w.1 w.2).Apart u.1 w.1 := by
          intro u hu
          have hne : u.1 ≠ w.1 := by
            intro heq
            exact hnot (heq ▸ List.mem_map_of_mem hu)
          exact (h u (List.mem_cons_of_mem w hu) w.1 hne).assign hne _ _
        exact (array_assignAll_of_notMem hnot hrest).2.trans array_assign_self
      · refine ih hws ?_ hw
        intro u hu g hne
        exact (h u (List.mem_cons_of_mem v hu) g hne).assign hne _ _

theorem assignAll_append (ws vs : List (φ × List β)) :
    m.assignAll (ws ++ vs) = (m.assignAll ws).assignAll vs := List.foldl_append

end Members

end Kyber.Lib
