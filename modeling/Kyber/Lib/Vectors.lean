import Mathlib.Data.List.Basic

/-!
# Vectors and their iterators

A vector keeps its elements in a buffer of some capacity. An element that is appended
to a full buffer moves all of them to a new one; how much larger this is, is up to the
library. An iterator is a place in the buffer that was in use when it was made, and
there is something in this place only as long as the buffer is in use.
-/

namespace Kyber.Lib

/-- A vector. The number of its buffer counts how often the elements have been moved. -/
structure Vec (α : Type) where
  elements : List α
  capacity : Nat
  buffer : Nat
  size_le : elements.length ≤ capacity

structure Iterator where
  buffer : Nat
  index : Nat
  deriving DecidableEq, Repr

def Iterator.next (it : Iterator) : Iterator := { it with index := it.index + 1 }

namespace Vec

variable {α : Type}

def empty : Vec α := ⟨[], 0, 0, Nat.le_refl 0⟩

instance : Inhabited (Vec α) := ⟨empty⟩

def HasRoom (v : Vec α) : Prop := v.elements.length < v.capacity

instance (v : Vec α) : Decidable v.HasRoom := inferInstanceAs (Decidable (_ < _))

def pushBack (grow : Nat → Nat) (v : Vec α) (a : α) : Vec α :=
  if h : v.HasRoom then
    { v with
      elements := v.elements ++ [a]
      size_le := by rw [List.length_append]; exact h }
  else
    { elements := v.elements ++ [a]
      capacity := max (v.elements.length + 1) (grow v.capacity)
      buffer := v.buffer + 1
      size_le := by rw [List.length_append]; exact Nat.le_max_left _ _ }

def start (v : Vec α) : Iterator := ⟨v.buffer, 0⟩

/-- What an iterator points to, if it points to anything. -/
def get? (v : Vec α) (it : Iterator) : Option α :=
  if it.buffer = v.buffer then v.elements[it.index]? else none

variable {grow : Nat → Nat} {v : Vec α}

@[simp] theorem elements_pushBack (a : α) : (v.pushBack grow a).elements = v.elements ++ [a] := by
  unfold pushBack
  split <;> rfl

/-- The elements stay where they are as long as there is room. -/
theorem buffer_pushBack (h : v.HasRoom) (a : α) : (v.pushBack grow a).buffer = v.buffer := by
  simp [pushBack, h]

theorem buffer_pushBack_of_full (h : ¬ v.HasRoom) (a : α) :
    (v.pushBack grow a).buffer = v.buffer + 1 := by
  simp [pushBack, h]

theorem buffer_le_pushBack (a : α) : v.buffer ≤ (v.pushBack grow a).buffer := by
  unfold pushBack
  split
  · exact Nat.le_refl _
  · exact Nat.le_succ _

/-- An iterator into the buffer in use finds what has been there from the first. -/
theorem get?_of_prefix {it : Iterator} (hbuffer : it.buffer = v.buffer) {first : List α}
    (hfirst : first <+: v.elements) (hindex : it.index < first.length) :
    v.get? it = first[it.index]? := by
  rw [get?, if_pos hbuffer]
  obtain ⟨rest, hrest⟩ := hfirst
  rw [← hrest, List.getElem?_append_left hindex]

/-- A moved element is not found any more. -/
theorem get?_of_moved {it : Iterator} (h : it.buffer < v.buffer) : v.get? it = none := by
  rw [get?, if_neg (Nat.ne_of_lt h)]

end Vec

end Kyber.Lib
