import Mathlib.Data.List.Pairwise

/-!
# Layouts of memory

A memory has a cell at each address. What is in it are objects, which are of types: a type
has a size, and parts that are of types themselves.

Where the parts of each type are apart and inside of it, and the objects are apart, any two
things in memory are apart or one is a part of the other (`Objects.At.cases`). What is written
to a thing that has no parts thus leaves all others of this kind as they are.
-/

namespace Kyber.Lib

/-! ## Cells -/

section Memory

variable {α : Type} {memory : Nat → α} {x y n : Nat} {cs : List α}

/-- The cells from `x` on, `n` of them. -/
def fetch (memory : Nat → α) (x n : Nat) : List α := (List.range n).map fun i => memory (x + i)

/-- The memory with other cells from `x` on. -/
def store (memory : Nat → α) (x : Nat) (cs : List α) : Nat → α := fun y =>
  if x ≤ y then (cs[y - x]?).getD (memory y) else memory y

/-- Two stretches of memory that have no cell in common. -/
def Apart (x m y n : Nat) : Prop := x + m ≤ y ∨ y + n ≤ x

theorem Apart.symm {x m y n : Nat} (h : Apart x m y n) : Apart y n x m := Or.symm h

theorem apart_of_pairwise {β : Type} {start width : β → Nat} {l : List β}
    (h : l.Pairwise fun a b => Apart (start a) (width a) (start b) (width b)) {a b : β}
    (ha : a ∈ l) (hb : b ∈ l) (hne : a ≠ b) : Apart (start a) (width a) (start b) (width b) := by
  have hsymm : Std.Symm fun a b : β => Apart (start a) (width a) (start b) (width b) :=
    ⟨fun _ _ => Apart.symm⟩
  exact h.forall ha hb hne

@[simp] theorem length_fetch (memory : Nat → α) (x n : Nat) : (fetch memory x n).length = n := by
  simp [fetch]

theorem getElem?_fetch {i : Nat} (h : i < n) : (fetch memory x n)[i]? = some (memory (x + i)) := by
  simp [fetch, h]

theorem fetch_congr {memory' : Nat → α} {x' : Nat}
    (h : ∀ i < n, memory (x + i) = memory' (x' + i)) : fetch memory x n = fetch memory' x' n :=
  List.map_congr_left fun i hi => h i (List.mem_range.mp hi)

theorem store_of_lt (h : y < x) : store memory x cs y = memory y := if_neg (by omega)

theorem store_of_ge (h : x + cs.length ≤ y) : store memory x cs y = memory y := by
  rw [store, if_pos (by omega), List.getElem?_eq_none (by omega), Option.getD_none]

theorem store_add {i : Nat} (h : i < cs.length) : store memory x cs (x + i) = cs[i] := by
  rw [store, if_pos (by omega), Nat.add_sub_cancel_left, List.getElem?_eq_getElem h,
    Option.getD_some]

theorem fetch_store_of_apart (h : Apart x cs.length y n) :
    fetch (store memory x cs) y n = fetch memory y n := by
  refine fetch_congr fun i hi => ?_
  rcases h with h | h
  · exact store_of_ge (by omega)
  · exact store_of_lt (by omega)

theorem fetch_store : fetch (store memory x cs) x cs.length = cs := by
  refine List.ext_getElem (length_fetch _ _ _) fun i hi hi' => ?_
  rw [← Option.some_inj, ← List.getElem?_eq_getElem hi, getElem?_fetch hi', store_add hi']

@[simp] theorem store_nil : store memory x [] = memory := by
  funext y
  rw [store]
  split
  · rfl
  · rfl

/-- What is read inside of what has been written. -/
theorem fetch_store_add {p : Nat} (h : p + n ≤ cs.length) :
    fetch (store memory x cs) (x + p) n = (cs.drop p).take n := by
  refine List.ext_getElem (by simp; omega) fun i hi hi' => ?_
  rw [length_fetch] at hi
  have hlt : p + i < cs.length := by omega
  rw [List.getElem_take, List.getElem_drop, ← Option.some_inj, ← List.getElem?_eq_getElem,
    getElem?_fetch hi, Nat.add_assoc, store_add hlt]

/-- What is read in a stretch that has been copied is what was there before it. -/
theorem fetch_store_fetch {m q : Nat} (h : q + n ≤ m) :
    fetch (store memory x (fetch memory y m)) (x + q) n = fetch memory (y + q) n := by
  refine fetch_congr fun i hi => ?_
  have hlt : q + i < (fetch memory y m).length := by
    rw [length_fetch]
    omega
  rw [Nat.add_assoc, store_add hlt, ← Option.some_inj, ← List.getElem?_eq_getElem hlt,
    getElem?_fetch (by omega), Nat.add_assoc]

end Memory

/-! ## Types -/

structure Layout (τ : Type) where
  size : τ → Nat
  /-- the parts, with their offsets -/
  fields : τ → List (Nat × τ)

namespace Layout

variable {τ : Type} {L : Layout τ} {t u v : τ} {p q : Nat}

/-- A part at an offset, or a part of a part. -/
inductive Part (L : Layout τ) : τ → Nat → τ → Prop
  | refl (t : τ) : Part L t 0 t
  | field {t u v : τ} {p q : Nat} (h : (p, u) ∈ L.fields t) (hpart : Part L u q v) :
      Part L t (p + q) v

/-- The fields of a type are inside of it, and apart. -/
structure Fits (L : Layout τ) (t : τ) : Prop where
  within : ∀ f ∈ L.fields t, f.1 + L.size f.2 ≤ L.size t
  apart : (L.fields t).Pairwise fun f g => Apart f.1 (L.size f.2) g.1 (L.size g.2)

/-- The type and its parts fit. -/
def Sound (L : Layout τ) (t : τ) : Prop := ∀ p u, L.Part t p u → L.Fits u

/-- The type has no parts, but a size. -/
structure Atomic (L : Layout τ) (t : τ) : Prop where
  fields : L.fields t = []
  pos : 0 < L.size t

theorem Part.trans (h : L.Part t p u) (h' : L.Part u q v) : L.Part t (p + q) v := by
  induction h with
  | refl => rwa [Nat.zero_add]
  | field hmem _ ih =>
      rw [Nat.add_assoc]
      exact .field hmem (ih h')

theorem Sound.part (h : L.Sound t) (hpart : L.Part t p u) : L.Sound u :=
  fun _ _ h' => h _ _ (hpart.trans h')

theorem Sound.field (h : L.Sound t) (hmem : (p, u) ∈ L.fields t) : L.Sound u :=
  h.part (.field hmem (.refl u))

theorem sound_of_fields (h : L.Fits t) (hfields : ∀ f ∈ L.fields t, L.Sound f.2) : L.Sound t := by
  intro p u hpart
  cases hpart with
  | refl => exact h
  | field hmem hpart => exact hfields _ hmem _ _ hpart

theorem Part.within (h : L.Sound t) (hpart : L.Part t p u) : p + L.size u ≤ L.size t := by
  induction hpart with
  | refl => exact Nat.le_of_eq (Nat.zero_add _)
  | field hmem _ ih =>
      have hfield := (h _ _ (.refl _)).within _ hmem
      have hrest := ih (h.field hmem)
      dsimp only at hfield
      omega

theorem Part.eq_of_atomic (h : L.Atomic t) (hpart : L.Part t p u) : p = 0 ∧ u = t := by
  cases hpart with
  | refl => exact ⟨rfl, rfl⟩
  | field hmem _ =>
      rw [h.fields] at hmem
      cases hmem

/-- Two parts of a type are apart, or one is a part of the other. -/
theorem Part.cases (h : L.Sound t) (hu : L.Part t p u) (hv : L.Part t q v) :
    Apart p (L.size u) q (L.size v) ∨ (∃ r, L.Part u r v ∧ q = p + r) ∨
      ∃ r, L.Part v r u ∧ p = q + r := by
  induction hu generalizing q v with
  | refl => exact .inr (.inl ⟨q, hv, by rw [Nat.zero_add]⟩)
  | @field t u₁ u p r hmem hpart ih =>
      cases hv with
      | refl => exact .inr (.inr ⟨p + r, .field hmem hpart, by rw [Nat.zero_add]⟩)
      | @field _ v₁ _ q s hmem' hpart' =>
          by_cases heq : (p, u₁) = (q, v₁)
          · cases heq
            rcases ih (h.field hmem) hpart' with ha | ⟨k, hk, rfl⟩ | ⟨k, hk, rfl⟩
            · left
              rcases ha with ha | ha
              · exact .inl (by omega)
              · exact .inr (by omega)
            · exact .inr (.inl ⟨k, hk, by rw [Nat.add_assoc]⟩)
            · exact .inr (.inr ⟨k, hk, by rw [Nat.add_assoc]⟩)
          · left
            have hsep := apart_of_pairwise (h _ _ (.refl _)).apart hmem hmem' heq
            have hr := hpart.within (h.field hmem)
            have hs := hpart'.within (h.field hmem')
            rcases hsep with hsep | hsep
            · exact .inl (by dsimp only at hsep; omega)
            · exact .inr (by dsimp only at hsep; omega)

end Layout

/-! ## Objects -/

/-- Where objects are, and of which types. -/
abbrev Objects (τ : Type) := List (Nat × τ)

namespace Objects

variable {τ : Type} {L : Layout τ} {objects : Objects τ} {t u : τ} {x y q : Nat}

structure Sound (L : Layout τ) (objects : Objects τ) : Prop where
  sound : ∀ ob ∈ objects, L.Sound ob.2
  apart : objects.Pairwise fun ob ob' => Apart ob.1 (L.size ob.2) ob'.1 (L.size ob'.2)

/-- At the address is an object of the type, or a part of one. -/
def At (L : Layout τ) (objects : Objects τ) (x : Nat) (t : τ) : Prop :=
  ∃ ob ∈ objects, ∃ p, L.Part ob.2 p t ∧ x = ob.1 + p

theorem at_of_mem (h : (x, t) ∈ objects) : At L objects x t := ⟨_, h, 0, .refl t, rfl⟩

theorem At.part (h : At L objects x t) (hpart : L.Part t q u) : At L objects (x + q) u := by
  obtain ⟨ob, hob, p, hp, rfl⟩ := h
  exact ⟨ob, hob, p + q, hp.trans hpart, Nat.add_assoc ..⟩

theorem At.field (h : At L objects x t) (hmem : (q, u) ∈ L.fields t) :
    At L objects (x + q) u := h.part (.field hmem (.refl u))

theorem At.sound (h : At L objects x t) (hs : Sound L objects) : L.Sound t := by
  obtain ⟨ob, hob, p, hp, -⟩ := h
  exact (hs.sound ob hob).part hp

theorem At.cases (hs : Sound L objects) (ht : At L objects x t) (hu : At L objects y u) :
    Apart x (L.size t) y (L.size u) ∨ (∃ r, L.Part t r u ∧ y = x + r) ∨
      ∃ r, L.Part u r t ∧ x = y + r := by
  obtain ⟨ob, hob, p, hp, rfl⟩ := ht
  obtain ⟨ob', hob', q, hq, rfl⟩ := hu
  by_cases heq : ob = ob'
  · subst heq
    rcases hp.cases (hs.sound ob hob) hq with ha | ⟨r, hr, rfl⟩ | ⟨r, hr, rfl⟩
    · left
      rcases ha with ha | ha
      · exact .inl (by omega)
      · exact .inr (by omega)
    · exact .inr (.inl ⟨r, hr, by rw [Nat.add_assoc]⟩)
    · exact .inr (.inr ⟨r, hr, by rw [Nat.add_assoc]⟩)
  · left
    have hp' := hp.within (hs.sound ob hob)
    have hq' := hq.within (hs.sound ob' hob')
    rcases apart_of_pairwise hs.apart hob hob' heq with ha | ha
    · exact .inl (by omega)
    · exact .inr (by omega)

/-- A thing without parts is inside of another, or apart from it. -/
theorem At.cases_of_atomic (hs : Sound L objects) (ht : At L objects x t)
    (hu : At L objects y u) (ha : L.Atomic u) :
    Apart x (L.size t) y (L.size u) ∨ ∃ r, L.Part t r u ∧ y = x + r := by
  rcases ht.cases hs hu with h | h | ⟨r, hr, hxy⟩
  · exact .inl h
  · exact .inr h
  · obtain ⟨rfl, rfl⟩ := hr.eq_of_atomic ha
    exact .inr ⟨0, .refl _, by omega⟩

/-- Two things without parts are the same one, or apart. -/
theorem At.eq_of_atomic (hs : Sound L objects) (ht : At L objects x t) (hu : At L objects y u)
    (ha : L.Atomic t) (ha' : L.Atomic u) :
    Apart x (L.size t) y (L.size u) ∨ y = x ∧ u = t := by
  rcases ht.cases_of_atomic hs hu ha' with h | ⟨r, hr, rfl⟩
  · exact .inl h
  · obtain ⟨rfl, rfl⟩ := hr.eq_of_atomic ha
    exact .inr ⟨rfl, rfl⟩

end Objects

end Kyber.Lib
