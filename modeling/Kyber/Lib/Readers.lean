import Kyber.Lib.Streams

/-!
# Readers of files

A format is given by a reader of streams. The programs that read it work on files: they have a
position, seek, and do not all notice that a file has ended. Here such a reader `m` is compared
with the reader `r` of the format, at the places of a file from which there is something to be
read.

`Follows place m r f`: where `r` answers `a`, so does `m` in its own terms, `f a`, which may be an
error, and is then at the place where `r` is. `Tracks` adds that `m` cannot answer where `r` has
failed, but for the answers that give themselves away and for going past the end of the file,
which a reader that counts what it has read can be asked for afterwards. It is then past it for
good, as `Advances offset m` says: `m` never goes back.
-/

namespace Kyber.Lib

variable {σ ε ε' α β γ δ : Type}

/-- So many answers, one after another. -/
def readMany {m : Type → Type} [Monad m] {α : Type} (body : m α) : Nat → m (List α)
  | 0 => pure []
  | n + 1 => do
      let a ← body
      let as ← readMany body n
      pure (a :: as)

theorem bind_apply_error {r : StateT σ (Except ε) α} {f : α → StateT σ (Except ε) β} {s : σ} {e : ε}
    (h : r s = .error e) : (r >>= f) s = .error e := by
  show (r s >>= fun p => f p.1 p.2) = .error e
  rw [h]
  rfl

theorem bind_apply_answer {r : StateT σ (Except ε) α} {f : α → StateT σ (Except ε) β} {s s' : σ}
    {a : α} (h : r s = .ok (a, s')) : (r >>= f) s = f a s' := by
  show (r s >>= fun p => f p.1 p.2) = f a s'
  rw [h]
  rfl

theorem get_bind_apply {f : σ → StateT σ (Except ε) β} {s : σ} :
    ((get : StateT σ (Except ε) σ) >>= f) s = f s s := rfl

theorem bind_apply_eq_ok {r : StateT σ (Except ε) α} {f : α → StateT σ (Except ε) β} {s s' : σ} {b : β} :
    (r >>= f) s = .ok (b, s') ↔ ∃ a s₁, r s = .ok (a, s₁) ∧ f a s₁ = .ok (b, s') := by
  cases h : r s with
  | error e => simp [bind_apply_error h]
  | ok p =>
      obtain ⟨a, s₁⟩ := p
      simp [bind_apply_answer h, Prod.ext_iff]

/-! ## Following the reader of a format -/

section Follows

variable {place : σ → List UInt8 → Prop}

def Follows (place : σ → List UInt8 → Prop) (m : StateT σ (Except ε') β) (r : StreamM ε α)
    (f : α → Except ε' β) : Prop :=
  ∀ s rest a rest', place s rest → r rest = .ok (a, rest') →
    (∀ b, f a = .ok b → ∃ s', m s = .ok (b, s') ∧ place s' rest') ∧
      ∀ e, f a = .error e → m s = .error e

theorem Follows.pure {a : α} {b : β} {f : α → Except ε' β} (h : f a = .ok b) :
    Follows place (Pure.pure b) (Pure.pure a : StreamM ε α) f := by
  intro s rest a' rest' hs hr
  cases hr
  refine ⟨fun b' hb' => ?_, fun e he => ?_⟩
  · cases h.symm.trans hb'
    exact ⟨s, rfl, hs⟩
  · cases h.symm.trans he

theorem Follows.throw_right {m : StateT σ (Except ε') β} {f : α → Except ε' β} (e : ε) :
    Follows place m (throw e : StreamM ε α) f := by
  intro s rest a rest' hs hr
  cases hr

theorem Follows.throw_left {r : StreamM ε α} {f : α → Except ε' β} {e : ε'}
    (hr : Yields r fun a => f a = .error e) :
    Follows place (throw e : StateT σ (Except ε') β) r f := by
  intro s rest a rest' hs ha
  have hfa := hr rest a rest' ha
  refine ⟨fun b hb => ?_, fun e' he' => ?_⟩
  · cases hfa.symm.trans hb
  · cases hfa.symm.trans he'
    rfl

/-- It matters only for what `r` answers. -/
theorem Follows.congr {m : StateT σ (Except ε') β} {r : StreamM ε α} {f g : α → Except ε' β}
    {P : α → Prop} (hm : Follows place m r f) (hr : Yields r P) (hfg : ∀ a, P a → f a = g a) :
    Follows place m r g := by
  intro s rest a rest' hs ha
  rw [← hfg a (hr rest a rest' ha)]
  exact hm s rest a rest' hs ha

/-- If the first reader fails, so does the whole: it must be that nothing that may come then
is answered. -/
theorem Follows.bind {m : StateT σ (Except ε') β} {r : StreamM ε α} {f : α → Except ε' β}
    {k : β → StateT σ (Except ε') δ} {g : α → StreamM ε γ} {h : γ → Except ε' δ}
    (hm : Follows place m r f) (hk : ∀ a b, f a = .ok b → Follows place (k b) (g a) h)
    (herror : ∀ a e, f a = .error e → ∀ s c s', g a s = .ok (c, s') → h c = .error e) :
    Follows place (m >>= k) (r >>= g) h := by
  intro s rest c rest' hs hr
  obtain ⟨a, rest₁, hra, hgc⟩ := bind_apply_eq_ok.mp hr
  have hma := hm s rest a rest₁ hs hra
  cases hfa : f a with
  | error e =>
      have hhc := herror a e hfa rest₁ c rest' hgc
      refine ⟨fun b hb => ?_, fun e' he' => ?_⟩
      · cases hhc.symm.trans hb
      · cases hhc.symm.trans he'
        exact bind_apply_error (hma.2 e hfa)
  | ok b =>
      obtain ⟨s₁, hms, hs₁⟩ := hma.1 b hfa
      rw [bind_apply_answer hms]
      exact hk a b hfa s₁ rest₁ c rest' hs₁ hgc

/-- A first reader that never fails. -/
theorem Follows.bind_ok {m : StateT σ (Except ε') β} {r : StreamM ε α} {f : α → β}
    {k : β → StateT σ (Except ε') δ} {g : α → StreamM ε γ} {h : γ → Except ε' δ}
    (hm : Follows place m r fun a => .ok (f a)) (hk : ∀ a, Follows place (k (f a)) (g a) h) :
    Follows place (m >>= k) (r >>= g) h := by
  refine hm.bind ?_ ?_
  · intro a b hb
    cases hb
    exact hk a
  · intro a e he
    cases he

theorem Follows.map {m : StateT σ (Except ε') β} {r : StreamM ε α} {f : α → β}
    (hm : Follows place m r fun a => .ok (f a)) {k : β → δ} {g : α → γ} {h : γ → δ}
    (hk : ∀ a, h (g a) = k (f a)) :
    Follows place (m >>= fun b => Pure.pure (k b)) (r >>= fun a => Pure.pure (g a))
      fun c => .ok (h c) :=
  hm.bind_ok fun a => Follows.pure (congrArg Except.ok (hk a))

theorem Follows.readMany {m : StateT σ (Except ε') β} {r : StreamM ε α} {f : α → Except ε' β}
    (hm : Follows place m r f) (n : Nat) :
    Follows place (readMany m n) (readMany r n) (List.mapM f) := by
  induction n with
  | zero => exact Follows.pure rfl
  | succ n ih =>
      refine hm.bind ?_ ?_
      · intro a b hb
        refine ih.bind ?_ ?_
        · intro as bs hbs
          exact Follows.pure (by rw [List.mapM_cons, hb, hbs]; rfl)
        · intro as e he s c s' hc
          cases hc
          rw [List.mapM_cons, hb, he]
          rfl
      · intro a e he s c s' hc
        obtain ⟨as, s₁, -, hc⟩ := bind_apply_eq_ok.mp hc
        cases hc
        rw [List.mapM_cons, he]
        rfl

end Follows

/-! ## Readers that go forward -/

section Advances

variable {offset : σ → Nat}

class Advances (offset : σ → Nat) (m : StateT σ (Except ε) α) : Prop where
  le : ∀ s a s', m s = .ok (a, s') → offset s ≤ offset s'

instance (a : α) : Advances offset (Pure.pure a : StateT σ (Except ε) α) where
  le s a' s' h := by
    cases h
    exact Nat.le_refl _

instance (e : ε) : Advances offset (throw e : StateT σ (Except ε) α) where
  le s a s' h := by cases h

instance {m : StateT σ (Except ε) α} {k : α → StateT σ (Except ε) β} [hm : Advances offset m]
    [hk : ∀ a, Advances offset (k a)] : Advances offset (m >>= k) where
  le s b s' h := by
    obtain ⟨a, s₁, hms, hks⟩ := bind_apply_eq_ok.mp h
    exact Nat.le_trans (hm.le s a s₁ hms) ((hk a).le s₁ b s' hks)

instance {p : Prop} [Decidable p] {m m' : StateT σ (Except ε) α} [Advances offset m]
    [Advances offset m'] : Advances offset (if p then m else m') := by
  split <;> infer_instance

instance Advances.readMany {m : StateT σ (Except ε) α} [Advances offset m] (n : Nat) :
    Advances offset (readMany m n) := by
  induction n with
  | zero => exact inferInstanceAs (Advances offset (Pure.pure []))
  | succ n ih =>
      exact inferInstanceAs (Advances offset (m >>= fun a => Kyber.Lib.readMany m n >>= fun as =>
        Pure.pure (a :: as)))

end Advances

/-! ## Keeping track of the end -/

section Tracks

variable {place : σ → List UInt8 → Prop} {offset : σ → Nat} {length : Nat}

/-- Answers that give themselves away satisfy `Bad`. -/
structure Tracks (place : σ → List UInt8 → Prop) (offset : σ → Nat) (length : Nat)
    (m : StateT σ (Except ε') β) (r : StreamM ε α) (f : α → β) (Bad : β → Prop) : Prop where
  follows : Follows place m r fun a => .ok (f a)
  fails : ∀ s rest e, place s rest → r rest = .error e →
    ∀ b s', m s = .ok (b, s') → length < offset s' ∨ Bad b

variable {f : α → β} {Bad : β → Prop}

/-- From an answer to one of the format's. -/
theorem Tracks.answer {m : StateT σ (Except ε') β} {r : StreamM ε α}
    (hm : Tracks place offset length m r f Bad) {s s' : σ} {rest : List UInt8} {b : β}
    (hs : place s rest) (h : m s = .ok (b, s')) (hlength : offset s' ≤ length) (hbad : ¬ Bad b) :
    ∃ a rest', r rest = .ok (a, rest') ∧ b = f a ∧ place s' rest' := by
  cases hr : r rest with
  | error e =>
      rcases hm.fails s rest e hs hr b s' h with hlt | hb
      · omega
      · exact absurd hb hbad
  | ok p =>
      obtain ⟨s₁, hms, hs₁⟩ := (hm.follows s rest p.1 p.2 hs hr).1 (f p.1) rfl
      cases hms.symm.trans h
      exact ⟨p.1, p.2, rfl, rfl, hs₁⟩

theorem Tracks.pure {a : α} {b : β} (h : f a = b) :
    Tracks place offset length (Pure.pure b : StateT σ (Except ε') β) (Pure.pure a : StreamM ε α)
      f Bad where
  follows := Follows.pure (congrArg Except.ok h)
  fails s rest e hs hr := by cases hr

/-- Where the format fails, answers must give themselves away. -/
theorem Tracks.throw {m : StateT σ (Except ε') β} (e : ε)
    (hbad : ∀ s b s', m s = .ok (b, s') → Bad b) :
    Tracks place offset length m (throw e : StreamM ε α) f Bad where
  follows := Follows.throw_right e
  fails s _ _ _ _ b s' h := .inr (hbad s b s' h)

/-- An answer that gives itself away does so in whatever is made of it. -/
theorem Tracks.bind_bad {m : StateT σ (Except ε') β} {r : StreamM ε α}
    {k : β → StateT σ (Except ε') δ} {g : α → StreamM ε γ} {h : γ → δ} {Bad' : δ → Prop}
    (hm : Tracks place offset length m r f Bad)
    [hadvances : ∀ b, Advances offset (k b)]
    (hk : ∀ a, Tracks place offset length (k (f a)) (g a) h Bad')
    (hbad : ∀ b, Bad b → ∀ s d s', k b s = .ok (d, s') → Bad' d) :
    Tracks place offset length (m >>= k) (r >>= g) h Bad' where
  follows := hm.follows.bind_ok fun a => (hk a).follows
  fails := by
    intro s rest e hs hr d s' hd
    obtain ⟨b, s₁, hms, hks⟩ := bind_apply_eq_ok.mp hd
    cases hra : r rest with
    | error e' =>
        -- What has been past the end stays there.
        rcases hm.fails s rest e' hs hra b s₁ hms with hlt | hb
        · exact .inl (Nat.lt_of_lt_of_le hlt ((hadvances b).le s₁ d s' hks))
        · exact .inr (hbad b hb s₁ d s' hks)
    | ok p =>
        obtain ⟨s₂, hms₂, hs₂⟩ := (hm.follows s rest p.1 p.2 hs hra).1 (f p.1) rfl
        cases hms₂.symm.trans hms
        rw [bind_apply_ok hra] at hr
        exact (hk p.1).fails s₁ p.2 e hs₂ hr d s' hks

theorem Tracks.bind {m : StateT σ (Except ε') β} {r : StreamM ε α}
    {k : β → StateT σ (Except ε') δ} {g : α → StreamM ε γ} {h : γ → δ} {Bad' : δ → Prop}
    [∀ b, Advances offset (k b)] (hm : Tracks place offset length m r f fun _ => False)
    (hk : ∀ a, Tracks place offset length (k (f a)) (g a) h Bad') :
    Tracks place offset length (m >>= k) (r >>= g) h Bad' :=
  hm.bind_bad hk fun _ hfalse => hfalse.elim

theorem Tracks.weaken {m : StateT σ (Except ε') β} {r : StreamM ε α} {Bad' : β → Prop}
    (hm : Tracks place offset length m r f Bad) (h : ∀ b, Bad b → Bad' b) :
    Tracks place offset length m r f Bad' where
  follows := hm.follows
  fails s rest e hs hr b s' hb := (hm.fails s rest e hs hr b s' hb).imp id (h b)

theorem Tracks.congr {m : StateT σ (Except ε') β} {r : StreamM ε α} {g : α → β} {P : α → Prop}
    (hm : Tracks place offset length m r f Bad) (hr : Yields r P) (hfg : ∀ a, P a → f a = g a) :
    Tracks place offset length m r g Bad where
  follows := hm.follows.congr hr fun a ha => congrArg Except.ok (hfg a ha)
  fails := hm.fails

/-- What the format makes of its answer. -/
theorem Tracks.map_right {m : StateT σ (Except ε') β} {r : StreamM ε α} {g : α → γ} {f : γ → β}
    (hm : Tracks place offset length m r (fun a => f (g a)) Bad) :
    Tracks place offset length m (r >>= fun a => Pure.pure (g a)) f Bad where
  follows := by
    intro s rest c rest' hs hr
    obtain ⟨a, rest₁, hra, hpure⟩ := bind_apply_eq_ok.mp hr
    cases hpure
    exact hm.follows s rest a _ hs hra
  fails := by
    intro s rest e hs hr b s' hb
    cases hra : r rest with
    | error e' => exact hm.fails s rest e' hs hra b s' hb
    | ok p =>
        rw [bind_apply_ok hra] at hr
        cases hr

/-- What a reader makes of its answer. -/
theorem Tracks.map_left {m : StateT σ (Except ε') β} {r : StreamM ε α}
    (hm : Tracks place offset length m r f fun _ => False) (k : β → δ) {Bad' : δ → Prop} :
    Tracks place offset length (m >>= fun b => Pure.pure (k b)) r (fun a => k (f a)) Bad' := by
  have h : Tracks place offset length (m >>= fun b => Pure.pure (k b))
      (r >>= Pure.pure) (fun a => k (f a)) Bad' := hm.bind fun a => Tracks.pure rfl
  rwa [bind_pure] at h

/-- A list gives itself away if one of it does. -/
theorem Tracks.readMany {m : StateT σ (Except ε') β} {r : StreamM ε α} [Advances offset m]
    (hm : Tracks place offset length m r f Bad) (n : Nat) :
    Tracks place offset length (readMany m n) (readMany r n) (List.map f) fun bs =>
      ∃ b ∈ bs, Bad b := by
  induction n with
  | zero => exact Tracks.pure rfl
  | succ n ih =>
      refine hm.bind_bad ?_ ?_
      · intro a
        refine ih.bind_bad (fun as => Tracks.pure rfl) ?_
        intro bs hbs s bs' s' hpure
        obtain ⟨b, hb, hbad⟩ := hbs
        cases hpure
        exact ⟨b, List.mem_cons_of_mem _ hb, hbad⟩
      · intro b hb s bs s' hbs
        obtain ⟨bs', s₁, -, hpure⟩ := bind_apply_eq_ok.mp hbs
        cases hpure
        exact ⟨b, List.mem_cons_self, hb⟩

end Tracks

end Kyber.Lib
