import Mathlib.Data.List.Nodup

/-!
# Collections of documents

A collection of a document database is a list of documents with a key that no two
of them share. A query by key answers the first match, and an update changes the
first match; when keys are not shared, the first is the only one.
-/

namespace Kyber.Lib

variable {α κ β : Type}

/-- The first match is changed. -/
def updateFirst (p : α → Bool) (f : α → α) : List α → List α
  | [] => []
  | a :: l => if p a then f a :: l else a :: updateFirst p f l

theorem mem_updateFirst {p : α → Bool} {f : α → α} {l : List α} {a : α}
    (h : a ∈ updateFirst p f l) : a ∈ l ∨ ∃ b ∈ l, p b = true ∧ a = f b := by
  induction l with
  | nil => cases h
  | cons b l ih =>
      rw [updateFirst] at h
      split at h
      · next hp =>
          rcases List.mem_cons.mp h with rfl | h
          · exact .inr ⟨b, List.mem_cons_self, hp, rfl⟩
          · exact .inl (List.mem_cons_of_mem _ h)
      · rcases List.mem_cons.mp h with rfl | h
        · exact .inl List.mem_cons_self
        · rcases ih h with h | ⟨c, hc, hp, heq⟩
          · exact .inl (List.mem_cons_of_mem _ h)
          · exact .inr ⟨c, List.mem_cons_of_mem _ hc, hp, heq⟩

/-- What the change keeps of the match, the update keeps of the list. -/
theorem map_updateFirst {p : α → Bool} {f : α → α} {g : α → β} (h : ∀ a, p a = true → g (f a) = g a)
    (l : List α) : (updateFirst p f l).map g = l.map g := by
  induction l with
  | nil => rfl
  | cons a l ih =>
      rw [updateFirst]
      split
      · next hp => rw [List.map_cons, List.map_cons, h a hp]
      · rw [List.map_cons, List.map_cons, ih]

theorem find?_updateFirst {p : α → Bool} {f : α → α} (h : ∀ a, p a = true → p (f a) = true)
    (l : List α) : (updateFirst p f l).find? p = (l.find? p).map f := by
  induction l with
  | nil => rfl
  | cons a l ih =>
      rw [updateFirst]
      split
      · next hp => rw [List.find?_cons_of_pos (h a hp), List.find?_cons_of_pos hp, Option.map_some]
      · next hp => rw [List.find?_cons_of_neg hp, List.find?_cons_of_neg hp, ih]

/-- A query that neither the match nor what it is changed to answers. -/
theorem find?_updateFirst_of_not {p q : α → Bool} {f : α → α}
    (h : ∀ a, p a = true → q a = false ∧ q (f a) = false) (l : List α) :
    (updateFirst p f l).find? q = l.find? q := by
  induction l with
  | nil => rfl
  | cons a l ih =>
      rw [updateFirst]
      split
      · next hp => simp [h a hp]
      · rw [List.find?_cons, List.find?_cons, ih]

/-- What the change keeps of the match, a query that does not ask for more finds
unchanged. -/
theorem map_find?_updateFirst {p q : α → Bool} {f : α → α} {g : α → β}
    (hq : ∀ a, p a = true → q (f a) = q a) (hg : ∀ a, p a = true → g (f a) = g a) (l : List α) :
    ((updateFirst p f l).find? q).map g = (l.find? q).map g := by
  induction l with
  | nil => rfl
  | cons a l ih =>
      rw [updateFirst]
      split
      · next hp =>
          rw [List.find?_cons, List.find?_cons, hq a hp]
          cases q a with
          | true => simp only [Option.map_some, hg a hp]
          | false => rfl
      · rw [List.find?_cons, List.find?_cons]
        cases q a with
        | true => rfl
        | false => exact ih

theorem updateFirst_eq_self {p : α → Bool} {f : α → α} {l : List α} {a : α} (h : l.find? p = some a)
    (hf : f a = a) : updateFirst p f l = l := by
  induction l with
  | nil => rfl
  | cons b l ih =>
      rw [updateFirst]
      split
      · next hp =>
          rw [List.find?_cons_of_pos hp, Option.some.injEq] at h
          rw [h, hf]
      · next hp =>
          rw [List.find?_cons_of_neg hp] at h
          rw [ih h]

theorem countP_updateFirst_le {p q : α → Bool} {f : α → α} (h : ∀ a, q (f a) = true → q a = true)
    (l : List α) : (updateFirst p f l).countP q ≤ l.countP q := by
  induction l with
  | nil => exact Nat.le_refl _
  | cons a l ih =>
      rw [updateFirst]
      split
      · rw [List.countP_cons, List.countP_cons]
        refine Nat.add_le_add_left ?_ _
        split
        · next hq => exact Nat.le_of_eq (if_pos (h a hq)).symm
        · exact Nat.zero_le _
      · rw [List.countP_cons, List.countP_cons]
        exact Nat.add_le_add_right ih _

section Keys

variable [BEq κ] [LawfulBEq κ] {key : α → κ} {l : List α}

theorem find?_key (hkeys : (l.map key).Nodup) {a : α} (ha : a ∈ l) :
    l.find? (key · == key a) = some a := by
  induction l with
  | nil => cases ha
  | cons b l ih =>
      rw [List.map_cons, List.nodup_cons] at hkeys
      rcases List.mem_cons.mp ha with rfl | ha
      · simp
      · have hne : key b ≠ key a := fun heq => hkeys.1 (heq ▸ List.mem_map_of_mem ha)
        rw [List.find?_cons_of_neg (by simpa using hne)]
        exact ih hkeys.2 ha

theorem find?_key_eq_some_iff (hkeys : (l.map key).Nodup) {k : κ} {a : α} :
    l.find? (key · == k) = some a ↔ a ∈ l ∧ key a = k := by
  constructor
  · intro h
    exact ⟨List.mem_of_find?_eq_some h, by simpa using List.find?_some h⟩
  · rintro ⟨ha, rfl⟩
    exact find?_key hkeys ha

theorem updateFirst_key (hkeys : (l.map key).Nodup) (k : κ) (f : α → α) :
    updateFirst (key · == k) f l = l.map fun a => if key a == k then f a else a := by
  induction l with
  | nil => rfl
  | cons a l ih =>
      rw [List.map_cons, List.nodup_cons] at hkeys
      rw [updateFirst, List.map_cons]
      split
      · next hk =>
          have hrest : l.map (fun a => if key a == k then f a else a) = l.map id := by
            refine List.map_congr_left fun b hb => if_neg fun hkb => hkeys.1 ?_
            rw [eq_of_beq hk, ← eq_of_beq hkb]
            exact List.mem_map_of_mem hb
          rw [hrest, List.map_id]
      · rw [ih hkeys.2]

/-- A document with a new key goes to the end. -/
theorem nodup_map_append (hkeys : (l.map key).Nodup) {a : α}
    (hnew : l.any (key · == key a) = false) : ((l ++ [a]).map key).Nodup := by
  rw [List.map_append, List.nodup_append]
  refine ⟨hkeys, List.nodup_singleton _, ?_⟩
  intro k hk k' hk' heq
  rw [List.map_singleton, List.mem_singleton] at hk'
  subst hk' heq
  obtain ⟨b, hb, hkey⟩ := List.mem_map.mp hk
  rw [List.any_eq_false] at hnew
  exact hnew b hb (by simpa using hkey)

end Keys

/-! ## Generated keys -/

section Generated

variable {ρ : Type} {generated : ρ → Option κ} {keys : List κ} {requests : List ρ}

/-- Two requests for which one key has been generated are one. -/
theorem index_eq_of_generated (h : (keys ++ requests.filterMap generated).Nodup) {i j : Nat}
    {r r' : ρ} (hi : requests[i]? = some r) (hj : requests[j]? = some r') {k : κ}
    (hr : generated r = some k) (hr' : generated r' = some k) : i = j := by
  have hnodup : (requests.filterMap generated).Nodup := (List.nodup_append.mp h).2.1
  rw [List.Nodup, List.pairwise_filterMap, List.pairwise_iff_getElem] at hnodup
  obtain ⟨hlt, rfl⟩ := List.getElem?_eq_some_iff.mp hi
  obtain ⟨hlt', rfl⟩ := List.getElem?_eq_some_iff.mp hj
  rcases Nat.lt_trichotomy i j with hij | hij | hij
  · exact absurd rfl (hnodup i j hlt hlt' hij k hr k hr')
  · exact hij
  · exact absurd rfl (hnodup j i hlt' hlt hij k hr' k hr)

theorem not_mem_of_generated (h : (keys ++ requests.filterMap generated).Nodup) {i : Nat} {r : ρ}
    (hi : requests[i]? = some r) {k : κ} (hr : generated r = some k) : k ∉ keys := by
  intro hk
  have hgen : k ∈ requests.filterMap generated :=
    List.mem_filterMap.mpr ⟨r, List.mem_of_getElem? hi, hr⟩
  exact (List.nodup_append.mp h).2.2 k hk k hgen rfl

end Generated

end Kyber.Lib
