import Mathlib.Data.List.Basic

/-!
# Moving an element of a list to a gap

A list of `n` elements has `n + 1` gaps, in front of each element and at the end. An element
that is moved to a gap comes to stand there, and all others stay as they are. The gaps on
both sides of an element are those where it is.

A program that removes the element first has to put it back one place earlier if the gap is
behind the element.
-/

namespace Kyber.Lib

variable {α : Type}

/-- What is in front of the gap, the element, and what is behind the gap, without the element
where it was. -/
def moveToGap (l : List α) (old gap : Nat) : List α :=
  (l.take gap).eraseIdx old ++ l[old]?.toList ++
    (if old < gap then l.drop gap else (l.drop gap).eraseIdx (old - gap))

theorem moveToGap_of_le (a b : List α) (x : α) {gap : Nat} (h : gap ≤ a.length) :
    moveToGap (a ++ x :: b) a.length gap = a.take gap ++ x :: (a.drop gap ++ b) := by
  have herase : (a.drop gap ++ x :: b).eraseIdx (a.length - gap) = a.drop gap ++ b := by
    rw [← List.length_drop, List.eraseIdx_append_of_length_le (Nat.le_refl _), Nat.sub_self]
    rfl
  rw [moveToGap, if_neg (by omega), List.take_append_of_le_length h,
    List.drop_append_of_le_length h, herase,
    List.eraseIdx_of_length_le (by rw [List.length_take]; omega)]
  simp

theorem moveToGap_of_lt (a b : List α) (x : α) (n : Nat) :
    moveToGap (a ++ x :: b) a.length (a.length + 1 + n) = a ++ b.take n ++ x :: b.drop n := by
  have htake : (a ++ x :: b).take (a.length + 1 + n) = a ++ x :: b.take n := by
    rw [Nat.add_assoc, List.take_length_add_append, Nat.add_comm 1, List.take_succ_cons]
  have hdrop : (a ++ x :: b).drop (a.length + 1 + n) = b.drop n := by
    rw [Nat.add_assoc, List.drop_length_add_append, Nat.add_comm 1, List.drop_succ_cons]
  rw [moveToGap, if_pos (by omega), htake, hdrop,
    List.eraseIdx_append_of_length_le (Nat.le_refl _), Nat.sub_self]
  simp

theorem eraseIdx_length (a b : List α) (x : α) : (a ++ x :: b).eraseIdx a.length = a ++ b := by
  rw [List.eraseIdx_append_of_length_le (Nat.le_refl _), Nat.sub_self]
  rfl

/-- An element and what is on its sides. -/
theorem exists_sides {l : List α} {old : Nat} (h : old < l.length) :
    ∃ a x b, l = a ++ x :: b ∧ old = a.length ∧ l[old] = x :=
  ⟨l.take old, l[old], l.drop (old + 1), by simp, by simp; omega, rfl⟩

/-- In the gaps on its sides an element is where it was. -/
theorem moveToGap_self {l : List α} {old : Nat} (h : old < l.length) :
    moveToGap l old old = l ∧ moveToGap l old (old + 1) = l := by
  obtain ⟨a, x, b, rfl, rfl, -⟩ := exists_sides h
  refine ⟨?_, ?_⟩
  · rw [moveToGap_of_le a b _ (Nat.le_refl _)]
    simp
  · rw [moveToGap_of_lt a b _ 0]
    simp

/-- The others keep their order. -/
theorem moveToGap_others {l : List α} {old : Nat} (h : old < l.length) (gap : Nat) :
    ∃ u v, moveToGap l old gap = u ++ l[old] :: v ∧ u ++ v = l.eraseIdx old := by
  obtain ⟨a, x, b, rfl, rfl, hx⟩ := exists_sides h
  rw [eraseIdx_length, hx]
  obtain hlt | hle := Nat.lt_or_ge a.length gap
  · obtain ⟨n, rfl⟩ := Nat.exists_eq_add_of_le hlt
    exact ⟨a ++ b.take n, b.drop n, moveToGap_of_lt a b x n,
      by rw [List.append_assoc, List.take_append_drop]⟩
  · exact ⟨a.take gap, a.drop gap ++ b, moveToGap_of_le a b x hle,
      by rw [← List.append_assoc, List.take_append_drop]⟩

/-! ## Removal and insertion -/

/-- Elements are put into a list at a place. -/
def insertAt (l : List α) (i : Nat) (xs : List α) : List α := l.take i ++ xs ++ l.drop i

theorem insertAt_eraseIdx_of_le {l : List α} {old gap : Nat} (h : old < l.length)
    (hgap : gap ≤ old) : insertAt (l.eraseIdx old) gap [l[old]] = moveToGap l old gap := by
  obtain ⟨a, x, b, rfl, rfl, hx⟩ := exists_sides h
  rw [eraseIdx_length, hx, moveToGap_of_le a b x hgap, insertAt,
    List.take_append_of_le_length hgap, List.drop_append_of_le_length hgap]
  simp

theorem insertAt_eraseIdx_of_lt {l : List α} {old gap : Nat} (h : old < l.length)
    (hgap : old < gap) : insertAt (l.eraseIdx old) (gap - 1) [l[old]] = moveToGap l old gap := by
  obtain ⟨a, x, b, rfl, rfl, hx⟩ := exists_sides h
  obtain ⟨n, rfl⟩ := Nat.exists_eq_add_of_le hgap
  have hindex : a.length.succ + n - 1 = a.length + n := by omega
  rw [eraseIdx_length, hx, moveToGap_of_lt a b x n, hindex, insertAt,
    List.take_length_add_append, List.drop_length_add_append]
  simp

/-- One place too early an element changes places with the one in front of it. -/
theorem insertAt_eraseIdx_pred_eq_iff {l : List α} {i : Nat} (h : i + 1 < l.length) :
    insertAt (l.eraseIdx (i + 1)) i [l[i + 1]] = l ↔ l[i] = l[i + 1] := by
  obtain ⟨a, x, b, rfl, ha, hx⟩ := exists_sides h
  obtain ⟨c, y, rfl⟩ : ∃ c y, a = c ++ [y] := by
    refine ⟨a.dropLast, a.getLast ?_, (List.dropLast_append_getLast _).symm⟩
    intro hnil
    rw [hnil, List.length_nil] at ha
    omega
  have hi : i = c.length := by
    rw [List.length_append, List.length_singleton] at ha
    omega
  subst hi
  have hy : (c ++ [y] ++ x :: b)[c.length] = y := by simp
  have herase : (c ++ [y] ++ x :: b).eraseIdx (c.length + 1) = c ++ [y] ++ b := by
    rw [ha, eraseIdx_length]
  rw [hx, hy, herase]
  simp only [insertAt, List.append_assoc, List.singleton_append, List.take_left,
    List.drop_left, List.append_cancel_left_eq, List.cons.injEq]
  constructor
  · intro heq
    exact heq.1.symm
  · intro heq
    exact ⟨heq.symm, heq, trivial⟩

end Kyber.Lib
