import Mathlib.Logic.Function.Basic

/-!
# Registries

A table that owners enter themselves into under a key, overwriting whoever was
there, and that entries are deleted from by key. Deleting by key and not by owner
is what can go wrong: an owner that has been replaced deletes the entry of the
one that replaced it.

The state is seen as two functions: the table, and who registered last under
each key. `Current` is what a registry is for, that the last one to register is
found as long as it is active. Registering and ceasing to be active keep it;
deleting keeps it exactly when the last registered owner is not active.
-/

namespace Kyber.Lib

structure Registry (K O : Type) where
  entry : K → Option O
  latest : K → Option O

namespace Registry

variable {K O : Type} [DecidableEq K]

def register (r : Registry K O) (k : K) (o : O) : Registry K O where
  entry := Function.update r.entry k (some o)
  latest := Function.update r.latest k (some o)

def unregister (r : Registry K O) (k : K) : Registry K O :=
  { r with entry := Function.update r.entry k none }

/-- The owner that registered last is in the table while it is active. -/
def Current (r : Registry K O) (active : O → Prop) : Prop :=
  ∀ k o, r.latest k = some o → active o → r.entry k = some o

variable {r : Registry K O} {active active' : O → Prop}

omit [DecidableEq K] in
theorem Current.mono (h : r.Current active) (ha : ∀ o, active' o → active o) :
    r.Current active' := fun k o hl hact => h k o hl (ha o hact)

/-- A new owner registers and becomes active. -/
theorem Current.register (h : r.Current active) {k : K} {o : O}
    (hnew : ∀ k', r.latest k' ≠ some o) (ha : ∀ o', active' o' → o' = o ∨ active o') :
    (r.register k o).Current active' := by
  intro k' o' hl hact
  simp only [Registry.register] at hl ⊢
  by_cases hk : k' = k
  · subst hk
    simpa using hl
  · rw [Function.update_of_ne hk] at hl ⊢
    rcases ha o' hact with rfl | hact
    · exact absurd hl (hnew k')
    · exact h k' o' hl hact

theorem current_unregister_iff (h : r.Current active) (k : K) :
    (r.unregister k).Current active ↔ ∀ o, r.latest k = some o → ¬ active o := by
  constructor
  · intro h' o hl hact
    have := h' k o hl hact
    simp [unregister] at this
  · intro hk k' o hl hact
    have hne : k' ≠ k := by
      rintro rfl
      exact hk o hl hact
    have := h k' o hl hact
    simpa [unregister, Function.update_of_ne hne] using this

/-- What one step of a system does to its registry. -/
inductive Op (K O : Type)
  | skip
  | register (k : K) (o : O)
  | unregister (k : K)
  deriving DecidableEq, Repr

def apply (r : Registry K O) : Op K O → Registry K O
  | .skip => r
  | .register k o => r.register k o
  | .unregister k => r.unregister k

theorem latest_apply {op : Op K O} {k : K} {o : O} (h : (r.apply op).latest k = some o) :
    r.latest k = some o ∨ op = .register k o := by
  cases op with
  | skip => exact .inl h
  | unregister _ => exact .inl h
  | register k' o' =>
      simp only [apply, Registry.register] at h
      by_cases hk : k = k'
      · subst hk
        rw [Function.update_self] at h
        cases h
        exact .inr rfl
      · rw [Function.update_of_ne hk] at h
        exact .inl h

theorem entry_apply {op : Op K O} {k : K} {o : O} (h : (r.apply op).entry k = some o) :
    r.entry k = some o ∧ op ≠ .unregister k ∨ op = .register k o := by
  cases op with
  | skip => exact .inl ⟨h, by simp⟩
  | unregister k' =>
      simp only [apply, Registry.unregister] at h
      by_cases hk : k = k'
      · subst hk
        simp at h
      · rw [Function.update_of_ne hk] at h
        exact .inl ⟨h, by simpa using Ne.symm hk⟩
  | register k' o' =>
      simp only [apply, Registry.register] at h
      by_cases hk : k = k'
      · subst hk
        rw [Function.update_self] at h
        cases h
        exact .inr rfl
      · rw [Function.update_of_ne hk] at h
        exact .inl ⟨h, by simp⟩

/-- The step of a system that has a registry. An owner becomes active by
registering, which it does once, and a deletion does not end anybody's activity. -/
theorem current_apply_iff {op : Op K O} (h : r.Current active)
    (hnew : ∀ k o, op = .register k o → ∀ k', r.latest k' ≠ some o)
    (hstart : ∀ o, active' o → active o ∨ ∃ k, op = .register k o)
    (hkeep : ∀ k, op = .unregister k → ∀ o, active o → active' o) :
    (r.apply op).Current active' ↔
      ∀ k, op = .unregister k → ∀ o, r.latest k = some o → ¬ active o := by
  cases op with
  | skip =>
      refine ⟨fun _ k hk => by simp at hk, fun _ => h.mono fun o ho => ?_⟩
      simpa using hstart o ho
  | register k o =>
      refine ⟨fun _ k hk => by simp at hk, fun _ => h.register (hnew k o rfl) fun o' ho' => ?_⟩
      rcases hstart o' ho' with hact | ⟨k', hk'⟩
      · exact .inr hact
      · cases hk'
        exact .inl rfl
  | unregister k =>
      have hsame : ∀ o, active' o ↔ active o := by
        intro o
        refine ⟨fun ho => ?_, hkeep k rfl o⟩
        simpa using hstart o ho
      have hcur : (r.apply (.unregister k)).Current active' ↔
          (r.unregister k).Current active :=
        ⟨fun h' => h'.mono fun o => (hsame o).mpr, fun h' => h'.mono fun o => (hsame o).mp⟩
      rw [hcur, current_unregister_iff h k]
      constructor
      · intro h' k' hk'
        cases hk'
        exact h'
      · intro h'
        exact h' k rfl

end Registry

end Kyber.Lib
