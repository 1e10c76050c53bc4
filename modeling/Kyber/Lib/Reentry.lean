import Mathlib.Data.List.Basic

/-!
# Nested calls with one cell

A call resets a cell. What runs in the call writes the cell and makes further calls,
each of which resets and writes the same cell. An activity is all of this in its order,
with the value that is in the cell when a nested call has returned.

The cell has the value that the call itself has written last, for a call and for all
that are nested in it, exactly if in each of them a nested call after the last write
has itself written the same value last.
-/

namespace Kyber.Lib

inductive Activity (ε β : Type)
  | done
  | write (value : β) (rest : Activity ε β)
  /-- a nested call, and the value in the cell when it has returned -/
  | enter (event : ε) (inner : Activity ε β) (left : β) (rest : Activity ε β)
  deriving DecidableEq, Repr

/-- A call. -/
structure Entry (ε β : Type) where
  event : ε
  inner : Activity ε β
  left : β

namespace Activity

variable {ε β : Type}

def append : Activity ε β → Activity ε β → Activity ε β
  | .done, next => next
  | .write value rest, next => .write value (rest.append next)
  | .enter event inner left rest, next => .enter event inner left (rest.append next)

/-- The value in the cell afterwards. -/
def cell : β → Activity ε β → β
  | before, .done => before
  | _, .write value rest => cell value rest
  | _, .enter _ _ left rest => cell left rest

/-- The value that is written last, apart from what nested calls write. -/
def own : β → Activity ε β → β
  | before, .done => before
  | _, .write value rest => own value rest
  | before, .enter _ _ _ rest => own before rest

/-- The value that is written last, where a nested call is a write of its own value. -/
def replay (initial : β) : β → Activity ε β → β
  | before, .done => before
  | _, .write value rest => replay initial value rest
  | _, .enter _ inner _ rest => replay initial (inner.own initial) rest

/-- All calls, those within nested calls included. -/
def calls : Activity ε β → List (Entry ε β)
  | .done => []
  | .write _ rest => rest.calls
  | .enter event inner left rest => ⟨event, inner, left⟩ :: (inner.calls ++ rest.calls)

/-- The values that are left are those in the cell. -/
def Recorded (initial : β) (a : Activity ε β) : Prop :=
  ∀ c ∈ a.calls, c.left = c.inner.cell initial

/-- After its last write the call makes no other call, or the last one of these has
itself written the same value last. -/
def Undisturbed (initial : β) (a : Activity ε β) : Prop :=
  a.replay initial initial = a.own initial

instance [DecidableEq β] (initial : β) (a : Activity ε β) : Decidable (a.Undisturbed initial) :=
  inferInstanceAs (Decidable (_ = _))

@[simp] theorem cell_append (a b : Activity ε β) (before : β) :
    (a.append b).cell before = b.cell (a.cell before) := by
  induction a generalizing before with
  | done => rfl
  | write value rest ih => exact ih value
  | enter event inner left rest _ ih => exact ih left

@[simp] theorem calls_append (a b : Activity ε β) : (a.append b).calls = a.calls ++ b.calls := by
  induction a with
  | done => rfl
  | write value rest ih => exact ih
  | enter event inner left rest _ ih => simp [append, calls, ih]

theorem Recorded.append {initial : β} {a b : Activity ε β} (ha : a.Recorded initial)
    (hb : b.Recorded initial) : (a.append b).Recorded initial := by
  intro c hc
  rw [calls_append, List.mem_append] at hc
  exact hc.elim (ha c) (hb c)

theorem Recorded.enter {initial : β} {inner : Activity ε β} (h : inner.Recorded initial)
    (event : ε) :
    (Activity.enter event inner (inner.cell initial) .done).Recorded initial := by
  intro c hc
  simp only [calls, List.append_nil, List.mem_cons] at hc
  rcases hc with rfl | hc
  · rfl
  · exact h c hc

/-- Nested calls that leave their own values are writes. -/
theorem cell_eq_replay {initial : β} {a : Activity ε β}
    (h : ∀ c ∈ a.calls, c.left = c.inner.own initial) (before : β) :
    a.cell before = a.replay initial before := by
  induction a generalizing before with
  | done => rfl
  | write value rest ih => exact ih h value
  | enter event inner left rest _ ih =>
      have hleft : left = inner.own initial := h ⟨event, inner, left⟩ List.mem_cons_self
      have hrest : ∀ c ∈ rest.calls, c.left = c.inner.own initial :=
        fun c hc => h c (List.mem_cons_of_mem _ (List.mem_append_right _ hc))
      rw [cell, replay, ← hleft]
      exact ih hrest left

/-- Every call leaves its own value exactly if none is disturbed. -/
theorem own_iff_undisturbed {initial : β} {a : Activity ε β} (h : a.Recorded initial) :
    (∀ c ∈ a.calls, c.left = c.inner.own initial) ↔
      ∀ c ∈ a.calls, c.inner.Undisturbed initial := by
  induction a with
  | done => simp [calls]
  | write value rest ih => exact ih h
  | enter event inner left rest ihinner ihrest =>
      simp only [Recorded, calls, List.forall_mem_cons, List.forall_mem_append] at h ⊢
      obtain ⟨hleft, hinner, hrest⟩ := h
      have hself : (∀ c ∈ inner.calls, c.left = c.inner.own initial) →
          (left = inner.own initial ↔ inner.Undisturbed initial) := by
        intro hown
        rw [hleft, cell_eq_replay hown]
        rfl
      rw [ihrest hrest]
      constructor
      · rintro ⟨hown, hnested, hfollowing⟩
        exact ⟨(hself hnested).mp hown, (ihinner hinner).mp hnested, hfollowing⟩
      · rintro ⟨hquiet, hnested, hfollowing⟩
        have hnested' := (ihinner hinner).mpr hnested
        exact ⟨(hself hnested').mpr hquiet, hnested', hfollowing⟩

end Activity

end Kyber.Lib
