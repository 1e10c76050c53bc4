import Mathlib.Data.List.Basic

/-!
# Reading and writing byte streams

A reader is a computation whose state is what is left to read, a writer one whose
state is what has been written, in a buffer of fixed capacity.

Three judgments are kept apart. `Reads r bs a`: in front of anything, `r` takes the
bytes `bs` and answers `a`. `Yields r P`: whatever `r` answers, on whatever input,
satisfies `P`. `Puts w bs`: `w` appends `bs` if there is room for it, and fails if
there is not. Each has a rule for sequencing, and a codec is put together from them:
the first and the last give that what is written is read back, and the second that
nothing else can be.
-/

namespace Kyber.Lib

variable {ε α β : Type}

abbrev StreamM (ε : Type) := StateT (List UInt8) (Except ε)

/-! ## Readers -/

def Reads (r : StreamM ε α) (bs : List UInt8) (a : α) : Prop :=
  ∀ tail, r (bs ++ tail) = .ok (a, tail)

theorem Reads.pure (a : α) : Reads (Pure.pure a : StreamM ε α) [] a := fun _ => rfl

theorem bind_apply_ok {r : StreamM ε α} {f : α → StreamM ε β} {s s' : List UInt8} {a : α}
    (h : r s = .ok (a, s')) : (r >>= f) s = f a s' := by
  show (r s >>= fun p => f p.1 p.2) = f a s'
  rw [h]
  rfl

theorem Reads.bind {r : StreamM ε α} {f : α → StreamM ε β} {bs cs : List UInt8} {a : α} {b : β}
    (hr : Reads r bs a) (hf : Reads (f a) cs b) : Reads (r >>= f) (bs ++ cs) b := by
  intro tail
  rw [List.append_assoc, bind_apply_ok (hr (cs ++ tail)), hf tail]

/-- The last answer of a reader is a function of what the one before it has read. -/
theorem Reads.map {r : StreamM ε α} {bs : List UInt8} {a : α} (hr : Reads r bs a) (f : α → β) :
    Reads (r >>= fun x => Pure.pure (f x)) bs (f a) := by
  intro tail
  rw [bind_apply_ok (hr tail)]
  rfl

def Yields (r : StreamM ε α) (P : α → Prop) : Prop :=
  ∀ s a s', r s = .ok (a, s') → P a

theorem Yields.pure {P : α → Prop} {a : α} (h : P a) : Yields (Pure.pure a : StreamM ε α) P := by
  intro s a' s' heq
  cases heq
  exact h

theorem Yields.throw {P : α → Prop} (e : ε) : Yields (throw e : StreamM ε α) P := by
  intro s a s' heq
  cases heq

theorem Yields.bind {r : StreamM ε α} {f : α → StreamM ε β} {P : α → Prop} {Q : β → Prop}
    (hr : Yields r P) (hf : ∀ a, P a → Yields (f a) Q) : Yields (r >>= f) Q := by
  intro s b s' heq
  cases h : r s with
  | error e =>
      have herr : (r >>= f) s = .error e := by
        show (r s >>= fun p => f p.1 p.2) = .error e
        rw [h]
        rfl
      rw [herr] at heq
      cases heq
  | ok p =>
      rw [bind_apply_ok h] at heq
      exact hf p.1 (hr s p.1 p.2 h) p.2 b s' heq

/-- A reader of which nothing needs to be known. -/
theorem Yields.true (r : StreamM ε α) : Yields r fun _ => True := fun _ _ _ _ => trivial

/-! ## Writers -/

section

variable {capacity : Nat} {full : ε}

def Puts (capacity : Nat) (full : ε) (w : StreamM ε Unit) (bs : List UInt8) : Prop :=
  ∀ s, s.length ≤ capacity →
    w s = if s.length + bs.length ≤ capacity then .ok ((), s ++ bs) else .error full

theorem Puts.pure : Puts capacity full (Pure.pure ()) [] := by
  intro s hs
  rw [List.length_nil, Nat.add_zero, if_pos hs, List.append_nil]
  rfl

theorem Puts.bind {w₁ w₂ : StreamM ε Unit} {bs cs : List UInt8}
    (h₁ : Puts capacity full w₁ bs) (h₂ : Puts capacity full w₂ cs) :
    Puts capacity full (do w₁; w₂) (bs ++ cs) := by
  intro s hs
  have hw₁ := h₁ s hs
  by_cases hfit : s.length + bs.length ≤ capacity
  · rw [if_pos hfit] at hw₁
    rw [bind_apply_ok hw₁, h₂ _ (by rwa [List.length_append]), List.length_append,
      List.length_append, List.append_assoc, Nat.add_assoc]
  · rw [if_neg hfit] at hw₁
    rw [if_neg (by rw [List.length_append]; omega)]
    show (w₁ s >>= fun p => w₂ p.2) = .error full
    rw [hw₁]
    rfl

theorem Puts.forM {xs : List α} {f : α → StreamM ε Unit} {g : α → List UInt8}
    (h : ∀ x ∈ xs, Puts capacity full (f x) (g x)) :
    Puts capacity full (xs.forM f) (xs.flatMap g) := by
  induction xs with
  | nil => exact Puts.pure
  | cons x xs ih =>
      rw [List.flatMap_cons]
      exact (h x (by simp)).bind (ih fun y hy => h y (by simp [hy]))

end

end Kyber.Lib
