import Mathlib.Algebra.Group.Nat.Defs
import Kyber.Core.MapRotation
import Kyber.Lib.Cycles
import Kyber.Lib.Runs

/-!
# The order of the maps

The index of the next entry, `position`, is below the number of entries, and goes up by one and
around: the cursor is put back by the next call when it is past the end. `cycles_iff` says that
this is so exactly as long as 16 bits are enough for the indices; with more entries the cursor
goes around before it comes to the last ones.
-/

namespace Kyber.Core

open Kyber.Lib

namespace MapRotation


variable {m : MapRotation}

/-- The index of the entry that is next. -/
def position (m : MapRotation) : Nat :=
  if m.current.toNat + 1 > m.entries.length then 0 else m.current.toNat

theorem getNextEntry_eq (m : MapRotation) :
    m.getNextEntry = if m.entries = [] then none
      else some (m.position, { m with current := UInt16.ofNat m.position + 1 }) := by
  rw [getNextEntry, position]
  by_cases hwrap : m.current.toNat + 1 > m.entries.length
  · rw [if_pos hwrap, if_pos hwrap]
    cases hentries : m.entries with
    | nil => rfl
    | cons entry entries => rfl
  · have hne : m.entries ≠ [] := by
      intro hnil
      rw [hnil, List.length_nil] at hwrap
      omega
    rw [if_neg hwrap, if_neg hwrap, if_neg hne]
    rw [if_pos (by omega), UInt16.ofNat_toNat]

theorem getNextEntry_isSome_iff : m.getNextEntry.isSome ↔ m.entries ≠ [] := by
  rw [getNextEntry_eq]
  by_cases hnil : m.entries = []
  · rw [if_pos hnil]
    exact iff_of_false Bool.false_ne_true (not_not.mpr hnil)
  · rw [if_neg hnil]
    exact iff_of_true rfl hnil

theorem position_lt_of_length {m : MapRotation} {n : Nat} (hn : 0 < n)
    (h : m.entries.length = n) :
    m.position < n := by
  rw [position]
  split <;> omega

theorem position_le (m : MapRotation) : m.position < 2 ^ 16 := by
  have hlt := m.current.toNat_lt
  rw [position]
  split <;> omega

/-- The cursor is put back when it is past the last entry, or wraps at the last index that it
has. -/
theorem position_next (hpos : m.entries ≠ []) (hlimit : m.entries.length ≤ 2 ^ 16) :
    position { m with current := UInt16.ofNat m.position + 1 }
      = (m.position + 1) % m.entries.length := by
  have hn : 0 < m.entries.length := List.length_pos_iff.mpr hpos
  have hlt := position_lt_of_length hn rfl
  rw [position]
  generalize m.position = k at *
  dsimp only
  rw [UInt16.toNat_add, UInt16.toNat_ofNat']
  show (if (k % 2 ^ 16 + 1) % 2 ^ 16 + 1 > _ then 0 else (k % 2 ^ 16 + 1) % 2 ^ 16) = _
  by_cases hlast : k + 1 = m.entries.length
  · rw [hlast, Nat.mod_self]
    split <;> omega
  · rw [Nat.mod_eq_of_lt (by omega : k + 1 < m.entries.length)]
    split <;> omega

/-- As many calls of `GetNextEntry` in a row as there are entries return each of them once, in
their order and around. -/
def Cycles (m : MapRotation) : Prop :=
  ∃ first m', draws getNextEntry m.entries.length m
    = some ((List.range m.entries.length).rotate first, m')

theorem cycles_iff : m.Cycles ↔ m.entries.length ≤ 2 ^ 16 := by
  constructor
  · intro h
    obtain ⟨first, m', h⟩ := h
    by_contra hlong
    have hmem : 2 ^ 16 ∈ (List.range m.entries.length).rotate first := by
      rw [List.mem_rotate, List.mem_range]
      omega
    have hlt := draws_forall (P := (· < 2 ^ 16)) (fun m r hr => ?_) h (2 ^ 16) hmem
    · omega
    · rw [getNextEntry_eq] at hr
      split at hr
      next => cases hr
      next =>
        cases hr
        exact m.position_le
  · intro hlimit
    generalize hn : m.entries.length = n at hlimit
    rw [Cycles, hn]
    cases n with
    | zero => exact ⟨0, m, rfl⟩
    | succ n =>
        have hpos : ∀ m : MapRotation, m.entries.length = n + 1 → m.position < n + 1 :=
          fun m h => position_lt_of_length (Nat.succ_pos n) h
        have hnext : ∀ m : MapRotation, m.entries.length = n + 1 → ∃ m' : MapRotation,
            m.getNextEntry = some (m.position, m') ∧ m'.entries.length = n + 1 ∧
              m'.position = (m.position + 1) % (n + 1) := by
          intro m h
          have hne : m.entries ≠ [] := by
            intro hnil
            rw [hnil] at h
            cases h
          refine ⟨{ m with current := UInt16.ofNat m.position + 1 }, ?_, h, ?_⟩
          · rw [getNextEntry_eq, if_neg hne]
          · rw [position_next hne (by omega), h]
        exact ⟨m.position, draws_eq_rotate hnext hpos hn⟩

theorem step_isSome_iff (op : Operation) :
    (m.step op).isSome ↔ (op = .getNextEntry → m.entries ≠ []) := by
  cases op with
  | getNextEntry =>
      rw [step, Option.isSome_map, getNextEntry_isSome_iff]
      exact ⟨fun h _ => h, fun h => h rfl⟩
  | reset => exact iff_of_true rfl fun h => by cases h
  | addEntry entry => exact iff_of_true rfl fun h => by cases h

/-- In every run of operations, no index is outside of the entries and the entries cycle from
each state on, exactly if there are entries whenever one is asked for, and never more of them
than 16 bits can number. -/
theorem runs_cycle_iff (start : MapRotation) (ops : List Operation) :
    ((exec step start ops).isSome ∧ ∀ m ∈ visits step start ops, m.Cycles) ↔
      (∀ before after m, ops = before ++ .getNextEntry :: after →
        exec step start before = some m → m.entries ≠ []) ∧
      ∀ m ∈ visits step start ops, m.entries.length ≤ 2 ^ 16 := by
  refine and_congr ?_ (forall₂_congr fun m _ => cycles_iff)
  rw [exec_isSome_iff (fun _ => True) (fun m op => op = .getNextEntry → m.entries ≠ [])
    (fun _ _ => trivial) (fun _ => step_isSome_iff _) trivial]
  constructor
  · intro h before after m hops hrun
    exact h before .getNextEntry after m hops hrun rfl
  · intro h before op after m hops hrun heq
    rw [heq] at hops
    exact h before after m hops hrun

/-- A rotation without entries, as a server can be started with. -/
theorem empty_outOfBounds :
    exec step { entries := [], current := 0 } [.reset, .getNextEntry] = none := rfl

end MapRotation

end Kyber.Core
