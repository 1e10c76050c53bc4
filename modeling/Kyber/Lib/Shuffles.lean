import Mathlib.Data.List.Perm.Basic
import Mathlib.Logic.Function.Basic

/-!
# Shuffles by swaps

The shuffle of Fisher and Yates goes through a list from its last position to its first
and swaps what is there with what is at a position drawn from those not after it. What
comes out is a permutation of the list (`shuffle_perm`), and every permutation comes
out for some draws (`exists_shuffle_eq`).
-/

namespace Kyber.Lib

variable {α : Type}

/-- The list with the elements at two positions swapped, if it has both. -/
def swapAt (l : List α) (i j : Nat) : Option (List α) :=
  match l[i]?, l[j]? with
  | some x, some y => some ((l.set i y).set j x)
  | _, _ => none

/-- The positions below `n`, from the last to the first. -/
def shuffle (draw : Nat → Nat) : Nat → List α → Option (List α)
  | 0, l => some l
  | n + 1, l => (swapAt l n (draw n)).bind (shuffle draw n)

theorem swapAt_eq {l : List α} {i j : Nat} (hi : i < l.length) (hj : j < l.length) :
    swapAt l i j = some ((l.set i l[j]).set j l[i]) := by
  rw [swapAt, List.getElem?_eq_getElem hi, List.getElem?_eq_getElem hj]

/-- A list that is long enough is shuffled, whatever is drawn. -/
theorem shuffle_perm {draw : Nat → Nat} (hdraw : ∀ i, draw i ≤ i) {n : Nat} {l : List α}
    (hn : n ≤ l.length) : ∃ l', shuffle draw n l = some l' ∧ l'.Perm l := by
  induction n generalizing l with
  | zero => exact ⟨l, rfl, List.Perm.refl l⟩
  | succ n ih =>
      have hj : draw n < l.length := Nat.lt_of_le_of_lt (hdraw n) hn
      have hperm := List.set_set_perm hn hj
      obtain ⟨l', hl', hperm'⟩ := ih (hperm.length_eq.symm ▸ Nat.le_of_succ_le hn)
      exact ⟨l', by rw [shuffle, swapAt_eq hn hj, Option.bind_some, hl'], hperm'.trans hperm⟩

/-! ## What comes out -/

theorem swapAt_append {l t : List α} {i j : Nat} (hi : i < l.length) (hj : j < l.length) :
    swapAt (l ++ t) i j = (swapAt l i j).map (· ++ t) := by
  have hi' : i < (l ++ t).length := by
    rw [List.length_append]
    omega
  have hj' : j < (l ++ t).length := by
    rw [List.length_append]
    omega
  rw [swapAt_eq hi hj, swapAt_eq hi' hj', Option.map_some, List.getElem_append_left hi,
    List.getElem_append_left hj, List.set_append_left _ _ hi,
    List.set_append_left _ _ (by simpa using hj)]

/-- What is behind the positions stays. -/
theorem shuffle_append {draw : Nat → Nat} (hdraw : ∀ i, draw i ≤ i) {n : Nat} {l : List α}
    (t : List α) (hn : n ≤ l.length) : shuffle draw n (l ++ t) = (shuffle draw n l).map (· ++ t) := by
  induction n generalizing l with
  | zero => rfl
  | succ n ih =>
      have hj : draw n < l.length := Nat.lt_of_le_of_lt (hdraw n) hn
      rw [shuffle, shuffle, swapAt_append hn hj, swapAt_eq hn hj, Option.map_some, Option.bind_some,
        Option.bind_some]
      exact ih (by simpa using Nat.le_of_succ_le hn)

theorem shuffle_congr {draw draw' : Nat → Nat} {n : Nat} (h : ∀ i, i < n → draw i = draw' i)
    (l : List α) : shuffle draw n l = shuffle draw' n l := by
  induction n generalizing l with
  | zero => rfl
  | succ n ih =>
      rw [shuffle, shuffle, h n (Nat.lt_succ_self n)]
      exact congrArg _ (funext fun l' => ih (fun i hi => h i (Nat.lt_succ_of_lt hi)) l')

/-- One swap brings any element to the end. -/
theorem exists_swapAt_eq_concat {n : Nat} {l b : List α} {x : α} (hl : l.length = n + 1)
    (hperm : l.Perm (b ++ [x])) :
    ∃ j ≤ n, ∃ l', swapAt l n j = some (l' ++ [x]) ∧ l'.Perm b := by
  obtain ⟨j, hj, hx⟩ := List.getElem_of_mem (hperm.mem_iff.mpr (List.mem_append_right b
    (List.mem_singleton_self x)))
  have hn : n < l.length := by omega
  have hset := List.set_set_perm hn hj
  have hne : (l.set n l[j]).set j l[n] ≠ [] :=
    List.ne_nil_of_length_pos (by simpa using Nat.lt_of_le_of_lt (Nat.zero_le _) hn)
  have hlast : ((l.set n l[j]).set j l[n]).getLast hne = x := by
    rw [List.getLast_eq_getElem, ← hx]
    simp only [List.length_set, hl, Nat.add_sub_cancel, List.getElem_set]
    split
    · next h => simp only [h]
    · rfl
  have hsplit := List.dropLast_append_getLast hne
  rw [hlast] at hsplit
  refine ⟨j, by omega, ((l.set n l[j]).set j l[n]).dropLast, ?_, ?_⟩
  · rw [swapAt_eq hn hj, hsplit]
  · have hwhole := hset.trans hperm
    rw [← hsplit] at hwhole
    exact (List.perm_append_right_iff [x]).mp hwhole

/-- Every permutation comes out. -/
theorem exists_shuffle_eq {l l' : List α} (h : l.Perm l') :
    ∃ draw : Nat → Nat, (∀ i, draw i ≤ i) ∧ shuffle draw l.length l = some l' := by
  induction hn : l.length generalizing l l' with
  | zero =>
      have hl := List.eq_nil_of_length_eq_zero hn
      subst hl
      rw [List.nil_perm.mp h]
      exact ⟨fun _ => 0, fun i => Nat.zero_le i, rfl⟩
  | succ n ih =>
      have hne : l' ≠ [] := List.ne_nil_of_length_pos (by rw [← h.length_eq, hn]; exact Nat.succ_pos n)
      have hsplit := List.dropLast_append_getLast hne
      rw [← hsplit] at h
      obtain ⟨j, hj, m, hswap, hperm⟩ := exists_swapAt_eq_concat hn h
      have hm : m.length = n := by
        have hlen := hperm.length_eq
        have hl' := h.length_eq
        rw [List.length_append, List.length_singleton, hn] at hl'
        omega
      obtain ⟨draw, hdraw, hshuffle⟩ := ih hperm hm
      let draw' : Nat → Nat := Function.update draw n j
      have hsame : ∀ i, i < n → draw' i = draw i := fun i hi =>
        Function.update_of_ne (Nat.ne_of_lt hi) j draw
      have hdraw' : ∀ i, draw' i ≤ i := by
        intro i
        rcases eq_or_ne i n with rfl | hi
        · rw [show draw' i = j from Function.update_self i j draw]
          exact hj
        · rw [show draw' i = draw i from Function.update_of_ne hi j draw]
          exact hdraw i
      refine ⟨draw', hdraw', ?_⟩
      rw [shuffle, show draw' n = j from Function.update_self n j draw, hswap, Option.bind_some,
        shuffle_append hdraw' _ (Nat.le_of_eq hm.symm), shuffle_congr hsame, hshuffle,
        Option.map_some, hsplit]

end Kyber.Lib
