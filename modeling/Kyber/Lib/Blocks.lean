import Mathlib.Data.List.Basic

/-!
# Blocks of memory

A block is a list of cells. An access gives the cell that it begins with and how many it is
for; one that reaches over either end of the block has no result.

`rows` sees a part of a block as a table whose rows have one width. What a write does to it is
said twice: one that is outside of the table leaves it, and one that is a row of it replaces
this row.
-/

namespace Kyber.Lib

variable {α : Type} {block : List α} {p q n w : Nat}

/-- The cells from `p` on, `n` of them. -/
def cells (block : List α) (p n : Nat) : List α := (block.drop p).take n

/-- The block with others from `p` on. -/
def overwrite (block : List α) (p : Nat) (cs : List α) : List α :=
  block.take p ++ cs ++ block.drop (p + cs.length)

def readAt (block : List α) (place : Int) (n : Nat) : Option (List α) :=
  if 0 ≤ place ∧ place + n ≤ block.length then some (cells block place.toNat n) else none

def writeAt (block : List α) (place : Int) (cs : List α) : Option (List α) :=
  if 0 ≤ place ∧ place + cs.length ≤ block.length then
    some (overwrite block place.toNat cs)
  else
    none

theorem readAt_of_le {place : Int} (hp : place = p) (h : p + n ≤ block.length) :
    readAt block place n = some (cells block p n) := by
  subst hp
  rw [readAt, if_pos (by omega), Int.toNat_natCast]

theorem writeAt_of_le {place : Int} {cs : List α} (hp : place = p)
    (h : p + cs.length ≤ block.length) :
    writeAt block place cs = some (overwrite block p cs) := by
  subst hp
  rw [writeAt, if_pos (by omega), Int.toNat_natCast]

theorem length_cells (h : p + n ≤ block.length) : (cells block p n).length = n := by
  rw [cells, List.length_take, List.length_drop]
  omega

theorem cells_cells (b : List α) (p : Nat) {m : Nat} (h : q + n ≤ m) :
    cells (cells b p m) q n = cells b (p + q) n := by
  rw [cells, cells, cells, List.drop_take, List.drop_drop, List.take_take,
    Nat.min_eq_left (by omega)]

theorem length_overwrite {cs : List α} (h : p + cs.length ≤ block.length) :
    (overwrite block p cs).length = block.length := by
  simp only [overwrite, List.length_append, List.length_take, List.length_drop]
  omega

theorem getElem?_overwrite {cs : List α} (h : p + cs.length ≤ block.length) (i : Nat) :
    (overwrite block p cs)[i]? =
      if p ≤ i ∧ i < p + cs.length then cs[i - p]? else block[i]? := by
  have htake : (block.take p).length = p := by
    rw [List.length_take]
    omega
  rw [overwrite, List.getElem?_append, List.getElem?_append, List.length_append, htake]
  split <;> rename_i hi
  · split <;> rename_i hip
    · rw [if_neg (by omega), List.getElem?_take, if_pos hip]
    · rw [if_pos (by omega)]
  · rw [if_neg (by omega), List.getElem?_drop]
    congr 1
    omega

theorem cells_overwrite {cs : List α} (h : p + cs.length ≤ block.length) :
    cells (overwrite block p cs) p cs.length = cs := by
  refine List.ext_getElem? fun i => ?_
  rw [cells, List.getElem?_take, List.getElem?_drop, getElem?_overwrite h]
  split <;> rename_i hi
  · rw [if_pos (by omega)]
    congr 1
    omega
  · exact (List.getElem?_eq_none (by omega)).symm

theorem cells_overwrite_of_disjoint {cs : List α} (h : p + cs.length ≤ block.length)
    (hd : q + n ≤ p ∨ p + cs.length ≤ q) :
    cells (overwrite block p cs) q n = cells block q n := by
  refine List.ext_getElem? fun i => ?_
  simp only [cells, List.getElem?_take, List.getElem?_drop, getElem?_overwrite h]
  split
  · rw [if_neg (by omega)]
  · rfl

/-! ## Tables -/

/-- `n` rows of `w` cells each, from `p` on. -/
def rows (block : List α) (p w n : Nat) : List (List α) :=
  (List.range n).map fun i => cells block (p + w * i) w

@[simp] theorem length_rows (block : List α) (p w n : Nat) : (rows block p w n).length = n := by
  simp [rows]

theorem getElem_rows {i : Nat} (h : i < (rows block p w n).length) :
    (rows block p w n)[i] = cells block (p + w * i) w := by
  simp [rows]

theorem row_le {i : Nat} (h : i < n) : w * i + w ≤ w * n := by
  rw [← Nat.mul_succ]
  exact Nat.mul_le_mul_left w h

theorem rows_congr {block' : List α} {p' : Nat}
    (h : cells block p (w * n) = cells block' p' (w * n)) :
    rows block p w n = rows block' p' w n := by
  refine List.map_congr_left fun i hi => ?_
  have hle := row_le (w := w) (List.mem_range.mp hi)
  rw [← cells_cells block p hle, ← cells_cells block' p' hle, h]

theorem rows_add (block : List α) (p w m n : Nat) :
    rows block p w (m + n) = rows block p w m ++ rows block (p + w * m) w n := by
  rw [rows, rows, rows, List.range_add, List.map_append, List.map_map]
  congr 1
  refine List.map_congr_left fun i _ => ?_
  show cells block (p + w * (m + i)) w = cells block (p + w * m + w * i) w
  rw [Nat.mul_add, Nat.add_assoc]

theorem rows_eq_replicate {a : α} (h : cells block p (w * n) = List.replicate (w * n) a) :
    rows block p w n = List.replicate n (List.replicate w a) := by
  refine List.eq_replicate_iff.mpr ⟨length_rows block p w n, ?_⟩
  intro row hrow
  obtain ⟨i, hi, rfl⟩ := List.mem_map.mp hrow
  have hle := row_le (w := w) (List.mem_range.mp hi)
  rw [← cells_cells block p hle, h, cells, List.drop_replicate, List.take_replicate]
  congr 1
  omega

theorem rows_overwrite_row {cs : List α} {i : Nat} (hw : cs.length = w) (hi : i < n)
    (h : p + w * n ≤ block.length) :
    rows (overwrite block (p + w * i) cs) p w n = (rows block p w n).set i cs := by
  have hle := row_le (w := w) hi
  refine List.ext_getElem (by simp) ?_
  intro j hj _
  rw [length_rows] at hj
  rw [getElem_rows, List.getElem_set]
  split <;> rename_i hij
  · subst hij hw
    exact cells_overwrite (by omega)
  · rw [getElem_rows]
    refine cells_overwrite_of_disjoint (by omega) ?_
    rcases Nat.lt_or_ge j i with hji | hji
    · have := row_le (w := w) hji
      omega
    · have := row_le (w := w) (show i < j by omega)
      omega

end Kyber.Lib
