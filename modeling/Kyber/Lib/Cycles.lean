import Mathlib.Data.List.Rotate

/-!
# Going round

Something is drawn from a state again and again. When the draws are positions below `n`, each
the next one after the one before and zero after the last, `n` draws in a row are all the
positions, from some place on in their order and around.
-/

namespace Kyber.Lib

variable {β σ : Type}

/-- What `k` draws in a row come to. -/
def draws (next : σ → Option (β × σ)) : Nat → σ → Option (List β × σ)
  | 0, s => some ([], s)
  | k + 1, s => (next s).bind fun r => (draws next k r.2).map fun rs => (r.1 :: rs.1, rs.2)

/-- The draws satisfy what each of them does. -/
theorem draws_forall {next : σ → Option (β × σ)} {P : β → Prop}
    (hnext : ∀ s r, next s = some r → P r.1) {k : Nat} {s : σ} {rs : List β × σ}
    (h : draws next k s = some rs) : ∀ b ∈ rs.1, P b := by
  induction k generalizing s rs with
  | zero =>
      cases h
      intro b hb
      exact absurd hb List.not_mem_nil
  | succ k ih =>
      obtain ⟨r, hr, h⟩ := Option.bind_eq_some_iff.mp h
      obtain ⟨rest, hrest, rfl⟩ := Option.map_eq_some_iff.mp h
      intro b hb
      rcases List.mem_cons.mp hb with rfl | hb
      · exact hnext s r hr
      · exact ih hrest b hb

theorem map_add_mod_eq_rotate (n k : Nat) :
    (List.range n).map (fun i => (k + i) % n) = (List.range n).rotate k := by
  refine List.ext_getElem ?_ ?_
  · rw [List.length_map, List.length_rotate]
  · intro i h₁ h₂
    rw [List.getElem_map, List.getElem_rotate, List.getElem_range, List.getElem_range,
      List.length_range, Nat.add_comm]

section

variable {next : σ → Option (Nat × σ)} {n : Nat} {pos : σ → Nat} {Inv : σ → Prop}
  (hnext : ∀ s, Inv s → ∃ s', next s = some (pos s, s') ∧ Inv s' ∧ pos s' = (pos s + 1) % n)
  (hpos : ∀ s, Inv s → pos s < n)

include hnext hpos

theorem draws_eq (k : Nat) {s : σ} (hs : Inv s) :
    ∃ s', draws next k s = some ((List.range k).map fun i => (pos s + i) % n, s') := by
  induction k generalizing s with
  | zero => exact ⟨s, rfl⟩
  | succ k ih =>
      obtain ⟨s₁, hstep, hs₁, hpos₁⟩ := hnext s hs
      obtain ⟨s', hrest⟩ := ih hs₁
      refine ⟨s', ?_⟩
      have htail : ∀ i, (pos s₁ + i) % n = (pos s + (i + 1)) % n := by
        intro i
        rw [hpos₁, Nat.mod_add_mod, Nat.add_assoc, Nat.add_comm 1]
      rw [draws, hstep, Option.bind_some, hrest, List.range_succ_eq_map, List.map_cons,
        List.map_map, Nat.add_zero, Nat.mod_eq_of_lt (hpos s hs)]
      simp only [htail]
      rfl

/-- All the way round. -/
theorem draws_eq_rotate {s : σ} (hs : Inv s) :
    ∃ s', draws next n s = some ((List.range n).rotate (pos s), s') := by
  rw [← map_add_mod_eq_rotate]
  exact draws_eq hnext hpos n hs

end

end Kyber.Lib
