import Mathlib.Data.List.Perm.Basic
import Mathlib.Data.Finset.Max
import Mathlib.Data.Finset.Image
import Mathlib.Tactic.Ring

/-!
# Blocks in front of elements

Every element has a block, which is a list of further elements and may be empty. The
blocks of a list are to be put in front of their elements. A program may do this in the
list itself, one element after the other, and look for the place of the element. What it
finds is the first element that is equal, and this is the right one exactly if the element
is not among those that come before it, with their blocks.

A block in the wrong place is too far in front, but always behind no more than it should
be. So the mistakes add up, in the number of elements of the block that are in front of an
element equal to its own, as long as the blocks that contain this are in their places. This
is so for the largest element whose block is in a wrong place, if the elements of a block
are smaller than its own: then the list is not what it should be.
-/

namespace Kyber.Lib

variable {α : Type} (block : α → List α)

/-- Every element with its block. -/
def withBlocks (l : List α) : List α := l.flatMap fun x => block x ++ [x]

theorem withBlocks_cons (x : α) (l : List α) :
    withBlocks block (x :: l) = block x ++ [x] ++ withBlocks block l := rfl

theorem withBlocks_append (l l' : List α) :
    withBlocks block (l ++ l') = withBlocks block l ++ withBlocks block l' :=
  List.flatMap_append

theorem withBlocks_concat (l : List α) (x : α) :
    withBlocks block (l ++ [x]) = withBlocks block l ++ (block x ++ [x]) := by
  rw [withBlocks_append, withBlocks_cons]
  exact congrArg _ (List.append_nil _)

variable [DecidableEq α]

/-- Put the block of an element in front of the first one that is equal. -/
def insertBefore (l : List α) (x : α) : List α :=
  l.take (l.idxOf x) ++ block x ++ l.drop (l.idxOf x)

/-- An element that has a block is not found before its place. -/
def Fresh (l : List α) : Prop :=
  ∀ before x after, l = before ++ x :: after → block x ≠ [] → x ∉ withBlocks block before

/-- An element with its block is put behind a list, with the block where it is put. -/
def put (w : List α) (x : α) : List α :=
  if x ∈ w then insertBefore block w x ++ [x] else w ++ (block x ++ [x])

/-- A test that only the element meets finds it. -/
theorem findIdx_eq_idxOf {p : α → Bool} {x : α} {l : List α} (h : ∀ a ∈ l, p a = true ↔ a = x) :
    l.findIdx p = l.idxOf x := by
  induction l with
  | nil => rfl
  | cons a l ih =>
      obtain ⟨ha, hl⟩ := List.forall_mem_cons.mp h
      rw [List.findIdx_cons, List.idxOf_cons, ih hl, Bool.eq_iff_iff.mpr (ha.trans beq_iff_eq.symm)]

variable {block}

theorem insertBefore_of_nil {x : α} (h : block x = []) (l : List α) : insertBefore block l x = l := by
  rw [insertBefore, h, List.append_nil, List.take_append_drop]

theorem insertBefore_append_cons (w : List α) (x : α) (l : List α) :
    insertBefore block (w ++ x :: l) x = put block w x ++ l := by
  unfold insertBefore put
  by_cases h : x ∈ w
  · have hlt := List.idxOf_lt_length_of_mem h
    rw [if_pos h, List.idxOf_append_of_mem h, List.take_append_of_le_length (Nat.le_of_lt hlt),
      List.drop_append_of_le_length (Nat.le_of_lt hlt), insertBefore]
    simp
  · have hidx : (w ++ x :: l).idxOf x = w.length := by
      rw [List.idxOf_append_of_notMem h, List.idxOf_cons_self, Nat.add_zero]
    rw [if_neg h, hidx, List.take_left, List.drop_left]
    simp

/-- The loop over a list that is also the rest of the list that it changes. -/
theorem foldl_insertBefore (w l : List α) :
    l.foldl (insertBefore block) (w ++ l) = l.foldl (put block) w := by
  induction l generalizing w with
  | nil => exact List.append_nil w
  | cons x l ih => rw [List.foldl_cons, List.foldl_cons, insertBefore_append_cons, ih]

theorem insertBefore_perm (w : List α) (x : α) : (insertBefore block w x).Perm (w ++ block x) :=
  calc (insertBefore block w x).Perm
        (w.take (w.idxOf x) ++ (w.drop (w.idxOf x) ++ block x)) := by
        rw [insertBefore, List.append_assoc]
        exact List.Perm.append_left _ List.perm_append_comm
    _ = w ++ block x := by rw [← List.append_assoc, List.take_append_drop]

theorem put_perm (w : List α) (x : α) : (put block w x).Perm (w ++ (block x ++ [x])) := by
  unfold put
  split
  · rw [← List.append_assoc]
    exact (insertBefore_perm w x).append_right [x]
  · exact List.Perm.refl _

/-- What is put behind a list is what it should be, up to the order. -/
theorem foldl_put_perm {w v : List α} (h : w.Perm v) (l : List α) :
    (l.foldl (put block) w).Perm (v ++ withBlocks block l) := by
  induction l generalizing w v with
  | nil =>
      rw [withBlocks, List.flatMap_nil, List.append_nil]
      exact h
  | cons x l ih =>
      have hput := (put_perm w x).trans (h.append_right (block x ++ [x]))
      refine (ih hput).trans (List.Perm.of_eq ?_)
      rw [withBlocks_cons, List.append_assoc v]

/-! ## Right places -/

theorem put_of_fresh {w : List α} {x : α} (h : block x ≠ [] → x ∉ w) :
    put block w x = w ++ (block x ++ [x]) := by
  unfold put
  split
  · next hmem =>
      have hnil : block x = [] := Classical.not_not.mp fun hne => h hne hmem
      rw [insertBefore_of_nil hnil, hnil, List.nil_append]
  · rfl

theorem foldl_put_of_fresh {done l : List α} (h : Fresh block (done ++ l)) :
    l.foldl (put block) (withBlocks block done) = withBlocks block (done ++ l) := by
  induction l generalizing done with
  | nil => rw [List.append_nil, List.foldl_nil]
  | cons x l ih =>
      rw [List.append_cons] at h ⊢
      rw [List.foldl_cons, put_of_fresh (h done x l (by simp)), ← withBlocks_concat]
      exact ih h

/-! ## Wrong places -/

/-- How often an `m` comes before a `c`. -/
def pairs (m c : α) : List α → Nat
  | [] => 0
  | a :: l => (if a = m then l.count c else 0) + pairs m c l

theorem pairs_append (m c : α) (u v : List α) :
    pairs m c (u ++ v) = pairs m c u + pairs m c v + u.count m * v.count c := by
  induction u with
  | nil => simp [pairs]
  | cons a u ih =>
      rw [List.cons_append, pairs, pairs, ih, List.count_append, List.count_cons]
      by_cases h : a = m
      · simp only [h, if_true, beq_self_eq_true]
        ring
      · rw [if_neg h, if_neg h, if_neg (by simpa using h)]
        ring

/-- Moving a block that has no `c` to the front of what does not come before it brings its
elements in front of each `c` there. -/
theorem pairs_move {m c : α} {b u : List α} (hb : c ∉ b) (w v : List α) :
    pairs m c (w ++ b ++ u ++ v) = pairs m c (w ++ u ++ b ++ v) + b.count m * u.count c := by
  have hzero : b.count c = 0 := List.count_eq_zero.mpr hb
  simp only [pairs_append, List.count_append, hzero]
  ring

section

variable {m c : α} {w v : List α}

/-- What one more element does to the lead that the list has got. -/
theorem pairs_put {x : α} (hperm : w.Perm v) (hx : x ∈ v → c ∉ block x) :
    pairs m c (put block w x) + pairs m c v =
      pairs m c w + pairs m c (v ++ (block x ++ [x])) +
        (if x ∈ w then (block x).count m * (w.drop (w.idxOf x)).count c else 0) := by
  have hcount : pairs m c (w ++ (block x ++ [x])) + pairs m c v =
      pairs m c w + pairs m c (v ++ (block x ++ [x])) := by
    rw [pairs_append m c w, pairs_append m c v, hperm.count_eq]
    ring
  unfold put
  by_cases h : x ∈ w
  · rw [if_pos h, if_pos h, insertBefore, pairs_move (hx (hperm.mem_iff.mp h)),
      List.take_append_drop, List.append_assoc w]
    omega
  · rw [if_neg h, if_neg h]
    omega

theorem mem_drop_idxOf {x : α} {l : List α} (h : x ∈ l) : x ∈ l.drop (l.idxOf x) := by
  rw [List.drop_eq_getElem_cons (List.idxOf_lt_length_of_mem h), List.getElem_idxOf]
  exact List.mem_cons_self

/-- A block in a wrong place gives its elements a lead. -/
theorem pairs_put_lt (hperm : w.Perm v) (hmem : c ∈ v) (hm : m ∈ block c) (hc : c ∉ block c)
    (hlead : pairs m c v ≤ pairs m c w) :
    pairs m c (v ++ (block c ++ [c])) + 1 ≤ pairs m c (put block w c) := by
  have hmem' : c ∈ w := hperm.mem_iff.mpr hmem
  have hput := pairs_put (m := m) hperm fun _ => hc
  have hpos : 0 < (block c).count m * (w.drop (w.idxOf c)).count c :=
    Nat.mul_pos (List.count_pos_iff.mpr hm) (List.count_pos_iff.mpr (mem_drop_idxOf hmem'))
  rw [if_pos hmem'] at hput
  omega

/-- A lead is never lost. -/
theorem pairs_foldl_put {k : Nat} {l : List α} (hperm : w.Perm v)
    (hlead : pairs m c v + k ≤ pairs m c w)
    (h : ∀ before x after, l = before ++ x :: after →
      x ∈ v ++ withBlocks block before → c ∉ block x) :
    pairs m c (v ++ withBlocks block l) + k ≤ pairs m c (l.foldl (put block) w) := by
  induction l generalizing w v with
  | nil =>
      rw [withBlocks, List.flatMap_nil, List.append_nil]
      exact hlead
  | cons x l ih =>
      have hx : x ∈ v → c ∉ block x := fun hmem => h [] x l rfl (List.mem_append_left _ hmem)
      have hput := (put_perm w x).trans (hperm.append_right (block x ++ [x]))
      have hnext := pairs_put (m := m) hperm hx
      rw [withBlocks_cons, ← List.append_assoc, List.foldl_cons]
      refine ih hput (by omega) fun before y after hl hmem => ?_
      refine h (x :: before) y after (by rw [hl]; rfl) ?_
      rwa [withBlocks_cons, ← List.append_assoc]

end

/-- If the elements of a block are smaller than its own, all blocks are in front of their
elements only if each element is found in its place. -/
theorem fresh_of_foldl_put {l : List α} {rank : α → Nat}
    (hrank : ∀ x ∈ l, ∀ y ∈ block x, rank y < rank x)
    (h : l.foldl (put block) [] = withBlocks block l) : Fresh block l := by
  intro before x after hl hne hmem
  -- the largest element that is found before its place
  let Wrong := fun c => ∃ before after, l = before ++ c :: after ∧ block c ≠ [] ∧
    c ∈ withBlocks block before
  classical
  obtain ⟨c, hc, hmax⟩ := Finset.exists_max_image (l.toFinset.filter Wrong) rank
    ⟨x, Finset.mem_filter.mpr ⟨by simp [hl], before, after, hl, hne, hmem⟩⟩
  obtain ⟨-, before, after, hl, hne, hmem⟩ := Finset.mem_filter.mp hc
  obtain ⟨m, hm⟩ := List.exists_mem_of_ne_nil _ hne
  have hblocks : ∀ before x after, l = before ++ x :: after → x ∈ withBlocks block before →
      c ∉ block x := by
    intro before x after hl hmem hcx
    have hx : x ∈ l := by simp [hl]
    have hle := hmax x (Finset.mem_filter.mpr ⟨List.mem_toFinset.mpr hx, before, after, hl,
      List.ne_nil_of_mem hcx, hmem⟩)
    have hlt := hrank x hx c hcx
    omega
  have hperm : (before.foldl (put block) []).Perm (withBlocks block before) :=
    foldl_put_perm (List.Perm.refl []) before
  have hbefore : pairs m c (withBlocks block before) + 0 ≤
      pairs m c (before.foldl (put block) []) := by
    refine pairs_foldl_put (List.Perm.refl []) (Nat.zero_le _) fun before' x after' hb hx => ?_
    refine hblocks before' x (after' ++ c :: after) ?_ hx
    rw [hl, hb]
    simp
  have hlead := pairs_put_lt hperm hmem hm (hblocks before c after hl hmem) hbefore
  have hnext : (put block (before.foldl (put block) []) c).Perm
      (withBlocks block before ++ (block c ++ [c])) :=
    (put_perm _ c).trans (hperm.append_right _)
  have hend : pairs m c (withBlocks block before ++ (block c ++ [c]) ++ withBlocks block after) +
      1 ≤ pairs m c (after.foldl (put block) (put block (before.foldl (put block) []) c)) := by
    refine pairs_foldl_put hnext hlead fun before' x after' hb hx => ?_
    refine hblocks (before ++ c :: before') x after' ?_ ?_
    · rw [hl, hb]
      simp
    · rwa [withBlocks_append, withBlocks_cons, ← List.append_assoc]
  rw [hl, List.foldl_append, List.foldl_cons, withBlocks_append, withBlocks_cons,
    ← List.append_assoc] at h
  rw [h] at hend
  omega

/-- The blocks are in front of their elements if each element with a block is found in its
place, and if the elements of blocks are smaller than their own only then. -/
theorem foldl_insertBefore_of_fresh {l : List α} (h : Fresh block l) :
    l.foldl (insertBefore block) l = withBlocks block l := by
  have h' : Fresh block ([] ++ l) := h
  exact (foldl_insertBefore [] l).trans (foldl_put_of_fresh h')

theorem fresh_of_foldl_insertBefore {l : List α} {rank : α → Nat}
    (hrank : ∀ x ∈ l, ∀ y ∈ block x, rank y < rank x)
    (h : l.foldl (insertBefore block) l = withBlocks block l) : Fresh block l := by
  refine fresh_of_foldl_put hrank ?_
  rw [← foldl_insertBefore]
  exact h

end Kyber.Lib
