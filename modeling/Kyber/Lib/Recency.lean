import Kyber.Lib.Firsts
import Mathlib.Data.List.Sort

/-!
# What was used last

A store of bounded size that keeps the keys used last is known from the history of
the uses: `recent` reads it backwards, takes the first of each key and stops at the
bound. `recent_concat` says what one more use does to it, without the history: it
comes first, the older use of its key is taken out, and of the others as many stay as
there is room for.

Such a store is often kept by sorting. What a sort has to do there is little. The new
use belongs in front of all others, and the others were in order before.
-/

namespace Kyber.Lib

section Recency

variable {α κ : Type} [DecidableEq κ] (key : α → κ)

/-- The latest uses of distinct keys, the newest first. -/
def recent (n : Nat) (uses : List α) : List α := (firsts key uses.reverse).take n

theorem recent_sublist (n : Nat) (uses : List α) : (recent key n uses).Sublist uses.reverse :=
  (List.take_sublist n _).trans (firsts_sublist key _)

theorem nodup_recent (n : Nat) (uses : List α) : ((recent key n uses).map key).Nodup :=
  (nodup_firsts key uses.reverse).sublist ((List.take_sublist n _).map key)

theorem length_recent_le (n : Nat) (uses : List α) : (recent key n uses).length ≤ n :=
  List.length_take_le n _

/-- Where one key is taken out of a list, one more element has to be looked at. -/
theorem take_filter_ne {l : List α} (h : (l.map key).Nodup) (k : κ) (n : Nat) :
    (l.filter (key · ≠ k)).take n = ((l.take (n + 1)).filter (key · ≠ k)).take n := by
  induction l generalizing n with
  | nil => rfl
  | cons b l ih =>
      rw [List.map_cons, List.nodup_cons] at h
      rw [List.take_succ_cons]
      by_cases hb : key b = k
      · have hrest : ∀ c ∈ l, decide (key c ≠ k) = true := by
          intro c hc
          rw [decide_eq_true_eq]
          exact fun hk => h.1 (List.mem_map.mpr ⟨c, hc, hk.trans hb.symm⟩)
        have hkept : ∀ c ∈ l.take n, decide (key c ≠ k) = true :=
          fun c hc => hrest c (List.mem_of_mem_take hc)
        rw [List.filter_cons_of_neg (by simpa using hb),
          List.filter_cons_of_neg (by simpa using hb), List.filter_eq_self.mpr hrest,
          List.filter_eq_self.mpr hkept, List.take_take, Nat.min_self]
      · rw [List.filter_cons_of_pos (by simpa using hb), List.filter_cons_of_pos (by simpa using hb)]
        cases n with
        | zero => rfl
        | succ n => rw [List.take_succ_cons, List.take_succ_cons, ih h.2 n]

/-- One more use, seen from what was kept of the others. -/
theorem recent_concat (n : Nat) (uses : List α) (a : α) :
    recent key (n + 1) (uses ++ [a])
      = a :: ((recent key (n + 1) uses).filter (key · ≠ key a)).take n := by
  rw [recent, List.reverse_concat, firsts, List.take_succ_cons,
    take_filter_ne key (nodup_firsts key _), recent]

end Recency

/-! ## Sorting -/

section Sorting

variable {α : Type} {le : α → α → Prop} {a : α} {l sorted : List α}

/-- A sort that keeps what was in order leaves it behind what belongs in front of it. -/
theorem eq_cons_of_sublist (hperm : sorted.Perm (a :: l)) (hsorted : sorted.Pairwise le)
    (hfirst : ∀ b ∈ l, ¬ le b a) (hkeeps : l.Sublist sorted) (ha : a ∉ l) : sorted = a :: l := by
  cases sorted with
  | nil => exact absurd hperm.length_eq (by simp)
  | cons b rest =>
      have hb : b = a := by
        rcases List.mem_cons.mp (hperm.subset List.mem_cons_self) with rfl | hmem
        · rfl
        · rcases List.mem_cons.mp (hperm.symm.subset List.mem_cons_self) with rfl | hrest
          · rfl
          · exact absurd ((List.pairwise_cons.mp hsorted).1 a hrest) (hfirst b hmem)
      subst hb
      have hsub : l.Sublist rest := by
        cases hkeeps with
        | cons _ h => exact h
        | cons_cons _ h => exact absurd List.mem_cons_self ha
      rw [hsub.eq_of_length hperm.cons_inv.length_eq.symm]

/-- Where the order tells the elements apart, there is one way to sort them. -/
theorem eq_of_perm_of_strict (hperm : sorted.Perm l) (hsorted : sorted.Pairwise le)
    (hl : l.Pairwise fun b c => le b c ∧ ¬ le c b) : sorted = l := by
  have : Std.Symm fun b c => le b c → le c b → b = c := ⟨fun _ _ h hcb hbc => (h hbc hcb).symm⟩
  have hanti := List.Pairwise.forall_of_forall (fun _ _ _ _ => rfl)
    (hl.imp (S := fun b c => le b c → le c b → b = c) fun h _ hcb => absurd hcb h.2)
  refine hperm.eq_of_pairwise (fun b c hb hc => hanti (hperm.subset hb) hc) hsorted ?_
  exact hl.imp fun h => h.1

end Sorting

end Kyber.Lib
