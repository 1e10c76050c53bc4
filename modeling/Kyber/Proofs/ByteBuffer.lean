import Kyber.ModLoader.ByteBuffer
import Mathlib.Data.List.TakeWhile

/-!
# What reading and writing a byte buffer does

Two judgments carry every codec proof. `Reads r bs a` says that `r` consumes
exactly the bytes `bs` from wherever the read cursor stands and answers `a`;
`Emits w bs` says that `w` appends exactly `bs`. Both compose along `bind`, so
a codec is proved by giving each field its bytes. Each has a form for code that
looks at more than the bytes at its cursor: `ReadsIn` fixes the whole buffer,
`Appends` what has been written before.

Appending has one subtlety. The bundle format moves the write cursor past the
end of the vector and writes on from there, and the vector only catches up, with
zeros, at the next write. `Holds` is therefore about the bytes the buffer stands
for, the gap included, and `Emits` keeps track of when the vector itself is
those bytes.
-/

namespace Kyber.ModLoader

open Kyber.Lib

variable {α β : Type}

/-- Running a fallible computation past its first step. -/
theorem bind_eq_ok {x : Except Fault α} {f : α → Except Fault β} {b : β}
    (h : x >>= f = .ok b) : ∃ a, x = .ok a ∧ f a = .ok b := by
  cases x with
  | error e => cases h
  | ok a => exact ⟨a, rfl, h⟩

theorem except_ok_bind (a : α) (f : α → Except Fault β) : (Except.ok a >>= f) = f a := rfl

/-- Running a computation past its first step. -/
theorem BufM.bind_ok {w : BufM α} {f : α → BufM β} {s s' : ByteBuffer} {a : α}
    (h : w s = .ok (a, s')) : (w >>= f) s = f a s' := by
  show (w s >>= fun p => f p.1 p.2) = _
  rw [h]
  rfl

theorem BufM.bind_error {w : BufM α} {f : α → BufM β} {s : ByteBuffer} {e : Fault}
    (h : w s = .error e) : (w >>= f) s = .error e := by
  show (w s >>= fun p => f p.1 p.2) = _
  rw [h]
  rfl

theorem BufM.bind_ok_iff {w : BufM α} {f : α → BufM β} {s s' : ByteBuffer} {b : β} :
    (w >>= f) s = .ok (b, s') ↔ ∃ a s₁, w s = .ok (a, s₁) ∧ f a s₁ = .ok (b, s') := by
  constructor
  · intro h
    obtain ⟨⟨a, s₁⟩, hw, hf⟩ := bind_eq_ok (show (w s >>= fun p => f p.1 p.2) = _ from h)
    exact ⟨a, s₁, hw, hf⟩
  · rintro ⟨a, s₁, hw, hf⟩
    rw [BufM.bind_ok hw, hf]

theorem BufM.lift_ok_bind (a : α) (f : α → BufM β) :
    ((liftM (Except.ok a : Except Fault α) : BufM α) >>= f) = f a := rfl

theorem BufM.lift_ok_iff {x : Except Fault α} {s s' : ByteBuffer} {a : α} :
    (liftM x : BufM α) s = .ok (a, s') ↔ x = .ok a ∧ s = s' := by
  cases x with
  | error e =>
      constructor
      · intro h
        cases h
      · rintro ⟨h, -⟩
        cases h
  | ok b =>
      constructor
      · intro h
        cases h
        exact ⟨rfl, rfl⟩
      · rintro ⟨h, rfl⟩
        cases h
        rfl

/-! ## Reading -/

/-- In a buffer of the bytes `F`, `r` consumes exactly `bs` and answers `a`. -/
def ReadsIn (F : List UInt8) (r : BufM α) (bs : List UInt8) (a : α) : Prop :=
  ∀ (s : ByteBuffer) (tail : List UInt8), s.buf = F → s.rest = bs ++ tail →
    r s = .ok (a, s.skip bs.length)

/-- `r` consumes exactly `bs` and answers `a`. -/
def Reads (r : BufM α) (bs : List UInt8) (a : α) : Prop := ∀ F, ReadsIn F r bs a

namespace ByteBuffer

@[simp] theorem skip_rpos (s : ByteBuffer) (n : Nat) : (s.skip n).rpos = s.rpos + n := rfl

@[simp] theorem skip_buf (s : ByteBuffer) (n : Nat) : (s.skip n).buf = s.buf := rfl

@[simp] theorem skip_zero (s : ByteBuffer) : s.skip 0 = s := rfl

@[simp] theorem skip_skip (s : ByteBuffer) (m n : Nat) :
    (s.skip m).skip n = s.skip (m + n) := by
  simp [skip, Nat.add_assoc]

theorem rest_skip {s : ByteBuffer} {bs tail : List UInt8} (h : s.rest = bs ++ tail) :
    (s.skip bs.length).rest = tail := by
  have hd : (s.skip bs.length).rest = s.rest.drop bs.length := by
    simp [rest, skip, List.drop_drop]
  rw [hd, h, List.drop_left]

/-- What is left is inside the buffer, so a read of it is in bounds. -/
theorem le_length_of_rest {s : ByteBuffer} {bs tail : List UInt8}
    (h : s.rest = bs ++ tail) (hne : bs ≠ []) : s.rpos + bs.length ≤ s.buf.length := by
  have hl := congrArg List.length h
  simp only [rest, List.length_drop, List.length_append] at hl
  have := List.length_pos_iff.mpr hne
  omega

@[simp] theorem rest_ofBytes (bs : List UInt8) : (ofBytes bs).rest = bs := rfl

end ByteBuffer

theorem ReadsIn.pure (F : List UInt8) (a : α) : ReadsIn F (Pure.pure a) [] a := by
  intro s tail _ _
  rfl

/-- Running a computation past what its first step reads. -/
theorem ReadsIn.bind_apply {F : List UInt8} {r : BufM α} {f : α → BufM β}
    {bs tail : List UInt8} {a : α} {s : ByteBuffer} (hr : ReadsIn F r bs a) (hF : s.buf = F)
    (h : s.rest = bs ++ tail) : (r >>= f) s = f a (s.skip bs.length) :=
  BufM.bind_ok (hr s tail hF h)

theorem ReadsIn.bind {F : List UInt8} {r : BufM α} {f : α → BufM β} {bs cs : List UInt8}
    {a : α} {b : β} (hr : ReadsIn F r bs a) (hf : ReadsIn F (f a) cs b) :
    ReadsIn F (r >>= f) (bs ++ cs) b := by
  intro s tail hF h
  rw [List.append_assoc] at h
  rw [hr.bind_apply hF h, hf (s.skip bs.length) tail hF (ByteBuffer.rest_skip h),
    ByteBuffer.skip_skip, List.length_append]

/-- The common last step of a decoder: build the value from what was read. -/
theorem ReadsIn.map {F : List UInt8} {r : BufM α} {bs : List UInt8} {a : α}
    (hr : ReadsIn F r bs a) (f : α → β) :
    ReadsIn F (r >>= fun x => Pure.pure (f x)) bs (f a) := by
  have h := ReadsIn.bind (f := fun x => Pure.pure (f x)) hr (ReadsIn.pure F (f a))
  rwa [List.append_nil] at h

/-- In a buffer of the bytes `F` with `bs` left, `r` answers `a`; where it leaves
the cursor is not said. -/
def Answers (F : List UInt8) (r : BufM α) (bs : List UInt8) (a : α) : Prop :=
  ∀ s : ByteBuffer, s.buf = F → s.rest = bs → ∃ s', r s = .ok (a, s')

theorem ReadsIn.bind_answers {F : List UInt8} {r : BufM α} {f : α → BufM β}
    {bs cs : List UInt8} {a : α} {b : β} (hr : ReadsIn F r bs a) (hf : Answers F (f a) cs b) :
    Answers F (r >>= f) (bs ++ cs) b := by
  intro s hF hs
  rw [hr.bind_apply hF hs]
  exact hf _ hF (ByteBuffer.rest_skip hs)

theorem Reads.pure (a : α) : Reads (Pure.pure a) [] a := fun F => ReadsIn.pure F a

theorem Reads.bind_apply {r : BufM α} {f : α → BufM β} {bs tail : List UInt8} {a : α}
    {s : ByteBuffer} (hr : Reads r bs a) (h : s.rest = bs ++ tail) :
    (r >>= f) s = f a (s.skip bs.length) := (hr s.buf).bind_apply rfl h

theorem Reads.bind {r : BufM α} {f : α → BufM β} {bs cs : List UInt8} {a : α} {b : β}
    (hr : Reads r bs a) (hf : Reads (f a) cs b) : Reads (r >>= f) (bs ++ cs) b :=
  fun F => (hr F).bind (hf F)

theorem Reads.map {r : BufM α} {bs : List UInt8} {a : α} (hr : Reads r bs a) (f : α → β) :
    Reads (r >>= fun x => Pure.pure (f x)) bs (f a) := fun F => (hr F).map f

theorem read_reads (bs : List UInt8) (hne : bs ≠ []) : Reads (read bs.length) bs bs := by
  intro F s tail _ h
  have hle := ByteBuffer.le_length_of_rest h hne
  show Except.ok (_, s.skip bs.length) = _
  rw [if_pos hle, h, List.take_left]

theorem readUnsafe_reads {bs : List UInt8} (hne : bs ≠ []) :
    Reads (readUnsafe bs.length) bs bs := by
  intro F s tail _ h
  have hle := ByteBuffer.le_length_of_rest h hne
  simp only [readUnsafe, get, getThe, MonadStateOf.get, StateT.get, StateT.bind, bind,
    Except.bind, pure, Except.pure]
  rw [if_pos hle, h, List.take_left]
  rfl

theorem getByte_reads (b : UInt8) : Reads getByte [b] b :=
  (read_reads [b] (by simp)).map fun bs => bs.headD 0

theorem getBytes_reads (bs : List UInt8) : Reads (getBytes bs.length) bs bs := by
  induction bs with
  | nil => exact Reads.pure []
  | cons b bs ih => exact (getByte_reads b).bind (ih.map fun xs => b :: xs)

theorem getShort_reads (v : UInt16) : Reads getShort (leBytes 2 v.toNat) v := by
  have h := (read_reads (leBytes 2 v.toNat) (by simp [leBytes])).map
    fun bs => UInt16.ofNat (leNat bs)
  rw [length_leBytes, leNat_leBytes (by have := v.toNat_lt; omega), UInt16.ofNat_toNat] at h
  exact h

theorem getInt_reads (v : UInt32) : Reads getInt (leBytes 4 v.toNat) v := by
  have h := (read_reads (leBytes 4 v.toNat) (by simp [leBytes])).map
    fun bs => UInt32.ofNat (leNat bs)
  rw [length_leBytes, leNat_leBytes (by have := v.toNat_lt; omega), UInt32.ofNat_toNat] at h
  exact h

theorem getLong_reads (v : UInt64) : Reads getLong (leBytes 8 v.toNat) v := by
  have h := (read_reads (leBytes 8 v.toNat) (by simp [leBytes])).map
    fun bs => UInt64.ofNat (leNat bs)
  rw [length_leBytes, leNat_leBytes (by have := v.toNat_lt; omega), UInt64.ofNat_toNat] at h
  exact h

/-- Sixteen bytes in a list and in an array are the same bytes. -/
theorem Vector.ofFn_getD_toList (v : Vector UInt8 16) :
    (Vector.ofFn fun i : Fin 16 => v.toList.getD i 0) = v := by
  ext i hi
  simp [List.getD_eq_getElem?_getD]

theorem getBytes16_reads (v : Vector UInt8 16) : Reads getBytes16 v.toList v := by
  have h := (getBytes_reads v.toList).map
    fun bs => (Vector.ofFn fun i : Fin 16 => bs.getD i 0 : Vector UInt8 16)
  rw [Vector.ofFn_getD_toList, Vector.length_toList] at h
  exact h

/-- A counted loop reads what its rounds read. -/
theorem repeatM_reads_map {γ : Type} {F : List UInt8} {r : BufM α} {f : γ → α}
    {g : γ → List UInt8} (xs : List γ) (h : ∀ x ∈ xs, ReadsIn F r (g x) (f x)) :
    ReadsIn F (repeatM r xs.length) (xs.flatMap g) (xs.map f) := by
  induction xs with
  | nil => exact ReadsIn.pure F []
  | cons x xs ih =>
      rw [List.flatMap_cons]
      exact (h x (by simp)).bind ((ih fun y hy => h y (by simp [hy])).map fun ys => f x :: ys)

theorem repeatM_reads {F : List UInt8} {r : BufM α} {g : α → List UInt8}
    (xs : List α) (h : ∀ x ∈ xs, ReadsIn F r (g x) x) :
    ReadsIn F (repeatM r xs.length) (xs.flatMap g) xs := by
  have hreads := repeatM_reads_map (f := id) xs h
  rwa [List.map_id] at hreads

theorem nonzero_of_nulFree {str : ByteString} (h : 0 ∉ str) :
    ∀ b ∈ str, decide (b ≠ 0) = true := by
  intro b hb
  rw [decide_eq_true_iff]
  rintro rfl
  exact h hb

/-- A NUL-free string and its terminator. -/
theorem getNullTerminatedString_reads {str : ByteString} (h : 0 ∉ str) :
    Reads getNullTerminatedString (str ++ [0]) str := by
  intro F s tail _ hs
  have ht : s.rest.takeWhile (· ≠ 0) = str := by
    rw [hs, List.append_assoc, List.takeWhile_append_of_pos (nonzero_of_nulFree h)]
    simp
  show Except.ok (_, s.skip _) = _
  rw [ht, List.length_append]
  rfl

/-! ## Writing -/

/-- The buffer stands for the bytes `L` and its write cursor is at their end.
The vector may be shorter than `L`, by zeros it has not been grown by yet. -/
structure ByteBuffer.Holds (s : ByteBuffer) (L : List UInt8) : Prop where
  content : s.buf ++ List.replicate (s.wpos - s.buf.length) 0 = L
  wpos_eq : s.wpos = L.length

theorem ByteBuffer.Holds.length_le {s : ByteBuffer} {L : List UInt8} (h : s.Holds L) :
    s.buf.length ≤ L.length := by
  rw [← h.content, List.length_append]
  omega

theorem ByteBuffer.holds_nil : ByteBuffer.Holds {} [] := ⟨rfl, rfl⟩

/-- On a buffer that stands for `L`, `w` appends exactly `bs` and answers `a`.
The vector is brought up to date by the first byte written, and stays so. -/
def Appends (L : List UInt8) (w : BufM α) (bs : List UInt8) (a : α) : Prop :=
  ∀ s : ByteBuffer, s.Holds L → L.length + bs.length < 2 ^ 32 →
    ∃ s', w s = .ok (a, s') ∧ s'.Holds (L ++ bs) ∧
      (s.buf = L ∨ bs ≠ [] → s'.buf = L ++ bs)

/-- `w` appends exactly `bs`, wherever the write cursor is. -/
def Emits (w : BufM Unit) (bs : List UInt8) : Prop := ∀ L, Appends L w bs ()

theorem Appends.pure (L : List UInt8) (a : α) : Appends L (Pure.pure a) [] a := by
  intro s h _
  refine ⟨s, rfl, by simpa using h, ?_⟩
  rintro (hb | hne)
  · simpa using hb
  · exact absurd rfl hne

theorem Appends.bind {L bs cs : List UInt8} {w : BufM α} {f : α → BufM β} {a : α} {b : β}
    (h₁ : Appends L w bs a) (h₂ : Appends (L ++ bs) (f a) cs b) :
    Appends L (w >>= f) (bs ++ cs) b := by
  intro s hs hlen
  rw [List.length_append] at hlen
  obtain ⟨s₁, e₁, hs₁, hb₁⟩ := h₁ s hs (by omega)
  obtain ⟨s₂, e₂, hs₂, hb₂⟩ := h₂ s₁ hs₁ (by rw [List.length_append]; omega)
  rw [List.append_assoc] at hs₂ hb₂
  refine ⟨s₂, ?_, hs₂, ?_⟩
  · rw [BufM.bind_ok e₁]
    exact e₂
  · intro h
    by_cases hbs : s.buf = L ∨ bs ≠ []
    · exact hb₂ (.inl (hb₁ hbs))
    · -- Nothing was written first, so what brings the vector up to date is `cs`.
      push Not at hbs
      obtain ⟨hL, rfl⟩ := hbs
      exact hb₂ (.inr (by simpa using h.resolve_left hL))

theorem Appends.map {L bs : List UInt8} {w : BufM α} {a : α} (h : Appends L w bs a)
    (f : α → β) : Appends L (w >>= fun x => Pure.pure (f x)) bs (f a) := by
  have h' := Appends.bind (f := fun x => Pure.pure (f x)) h (Appends.pure _ (f a))
  rwa [List.append_nil] at h'

/-- A step that appends nothing. -/
theorem Appends.bind_nil {L cs : List UInt8} {w : BufM α} {f : α → BufM β} {a : α} {b : β}
    (h₁ : Appends L w [] a) (h₂ : Appends L (f a) cs b) : Appends L (w >>= f) cs b := by
  have h := Appends.bind (f := f) h₁ (by rwa [List.append_nil])
  exact h

theorem getWritePos_appends (L : List UInt8) : Appends L getWritePos [] L.length := by
  intro s hs _
  refine ⟨s, ?_, by simpa using hs, ?_⟩
  · show Except.ok (s.wpos, s) = _
    rw [hs.wpos_eq]
  · rintro (hb | hne)
    · simpa using hb
    · exact absurd rfl hne

theorem Emits.pure : Emits (Pure.pure ()) [] := fun L => Appends.pure L ()

theorem Emits.bind {w₁ w₂ : BufM Unit} {bs cs : List UInt8} (h₁ : Emits w₁ bs)
    (h₂ : Emits w₂ cs) : Emits (do w₁; w₂) (bs ++ cs) :=
  fun L => (h₁ L).bind (h₂ (L ++ bs))

theorem append_emits (bs : List UInt8) : Emits (append bs) bs := by
  intro L s hs hlen
  have hw := hs.wpos_eq
  have hbl := hs.length_le
  have hmod : bs.length % 2 ^ 32 = bs.length := Nat.mod_eq_of_lt (by omega)
  have hstop : (s.wpos + bs.length) % 2 ^ 32 = L.length + bs.length := by
    rw [hw]; exact Nat.mod_eq_of_lt hlen
  have hsize : s.size = s.buf.length := Nat.mod_eq_of_lt (by omega)
  -- After the resize the vector is `L` and room for `bs`.
  have hgrow : (if s.size < L.length + bs.length then
        s.buf ++ List.replicate (L.length + bs.length - s.buf.length) 0 else s.buf)
      = L ++ List.replicate bs.length 0 := by
    have hL : L = s.buf ++ List.replicate (L.length - s.buf.length) 0 := by
      rw [← hw]; exact hs.content.symm
    conv_rhs => rw [hL]
    rw [hsize, List.append_assoc, List.replicate_append_replicate]
    split
    · congr 2
      omega
    · have h0 : L.length - s.buf.length + bs.length = 0 := by omega
      rw [h0, List.replicate_zero, List.append_nil]
  have hover : overwrite (L ++ List.replicate bs.length 0) L.length bs = L ++ bs := by
    simp [overwrite]
  refine ⟨{ s with buf := L ++ bs, wpos := L.length + bs.length }, ?_, ?_, fun _ => rfl⟩
  · simp only [append, putBytes, get, getThe, MonadStateOf.get, StateT.get, StateT.bind, bind,
      Except.bind, pure, Except.pure, hmod, hstop, hgrow]
    rw [if_pos ⟨by simp [hw], Nat.le_refl _⟩, List.take_length, hw, hover]
    rfl
  · exact ⟨by simp, by simp⟩

/-- Writing over bytes that are there already. -/
theorem append_overwrites (bs : List UInt8) {s : ByteBuffer} {A old C : List UInt8}
    (hbuf : s.buf = A ++ (old ++ C)) (hw : s.wpos = A.length) (hlen : old.length = bs.length)
    (hfits : s.buf.length < 2 ^ 32) :
    append bs s = .ok ((), { s with buf := A ++ (bs ++ C), wpos := A.length + bs.length }) := by
  have hl : s.buf.length = A.length + (bs.length + C.length) := by
    rw [hbuf, List.length_append, List.length_append, hlen]
  have hmod : bs.length % 2 ^ 32 = bs.length := Nat.mod_eq_of_lt (by omega)
  have hstop : (s.wpos + bs.length) % 2 ^ 32 = A.length + bs.length := by
    rw [hw]; exact Nat.mod_eq_of_lt (by omega)
  have hgrow : ¬ s.size < A.length + bs.length := by
    rw [ByteBuffer.size, Nat.mod_eq_of_lt hfits]
    omega
  have hover : overwrite s.buf s.wpos bs = A ++ (bs ++ C) := by
    rw [overwrite, hbuf, hw, ← hlen, List.take_left, ← List.append_assoc A old,
      ← List.length_append, List.drop_left, List.append_assoc]
  simp only [append, putBytes, get, getThe, MonadStateOf.get, StateT.get, StateT.bind, bind,
    Except.bind, pure, Except.pure, hmod, hstop, hgrow, if_false]
  rw [if_pos (by omega), List.take_length, hover]
  rfl

/-- `w` writes `bs` over as many bytes that are there already. -/
def Overwrites (w : BufM Unit) (bs : List UInt8) : Prop :=
  ∀ (s : ByteBuffer) (A old C : List UInt8), s.buf = A ++ (old ++ C) → s.wpos = A.length →
    old.length = bs.length → s.buf.length < 2 ^ 32 →
    ∃ s', w s = .ok ((), s') ∧ s'.buf = A ++ (bs ++ C) ∧ s'.wpos = A.length + bs.length

theorem Overwrites.append (bs : List UInt8) : Overwrites (append bs) bs :=
  fun _ _ _ _ hbuf hw hlen hfits => ⟨_, append_overwrites bs hbuf hw hlen hfits, rfl, rfl⟩

theorem Overwrites.pure : Overwrites (Pure.pure ()) [] := by
  intro s A old C hbuf hw hlen _
  rw [List.length_eq_zero_iff.mp hlen] at hbuf
  exact ⟨s, rfl, hbuf, hw⟩

theorem Overwrites.bind {w₁ w₂ : BufM Unit} {bs cs : List UInt8} (h₁ : Overwrites w₁ bs)
    (h₂ : Overwrites w₂ cs) : Overwrites (do w₁; w₂) (bs ++ cs) := by
  intro s A old C hbuf hw hlen hfits
  rw [List.length_append] at hlen
  have hold : old.take bs.length ++ old.drop bs.length = old := List.take_append_drop _ _
  have htake : (old.take bs.length).length = bs.length := by
    rw [List.length_take]
    omega
  have hbuf₁ : s.buf = A ++ (old.take bs.length ++ (old.drop bs.length ++ C)) := by
    rw [hbuf, ← List.append_assoc (old.take bs.length), hold]
  obtain ⟨s₁, e₁, hb₁, hw₁⟩ := h₁ s A _ _ hbuf₁ hw htake hfits
  have hlen₁ : s₁.buf.length = s.buf.length := by
    simp only [hb₁, hbuf₁, List.length_append, htake]
  obtain ⟨s₂, e₂, hb₂, hw₂⟩ := h₂ s₁ (A ++ bs) (old.drop bs.length) C
    (by rw [hb₁, List.append_assoc]) (by rw [hw₁, List.length_append])
    (by rw [List.length_drop]; omega) (by rw [hlen₁]; exact hfits)
  refine ⟨s₂, ?_, ?_, ?_⟩
  · rw [BufM.bind_ok e₁, e₂]
  · rw [hb₂, List.append_assoc, List.append_assoc]
  · rw [hw₂, List.length_append, List.length_append, Nat.add_assoc]

theorem forM_overwrites {xs : List α} {f : α → BufM Unit} {g : α → List UInt8}
    (h : ∀ x, Overwrites (f x) (g x)) : Overwrites (xs.forM f) (xs.flatMap g) := by
  induction xs with
  | nil => exact Overwrites.pure
  | cons x xs ih =>
      rw [List.flatMap_cons]
      exact (h x).bind ih

theorem put_emits (b : UInt8) : Emits (put b) [b] := append_emits [b]

theorem putShort_emits (v : UInt16) : Emits (putShort v) (leBytes 2 v.toNat) := append_emits _

theorem putInt_emits (v : UInt32) : Emits (putInt v) (leBytes 4 v.toNat) := append_emits _

theorem putLong_emits (v : UInt64) : Emits (putLong v) (leBytes 8 v.toNat) := append_emits _

/-- The zeros up to the next multiple of `alignment`. -/
def zeros (alignment n : Nat) : List UInt8 :=
  List.replicate ((alignment - n % alignment) % alignment) 0

theorem padRounds_appends {alignment : Nat} (ha : 0 < alignment) (fuel : Nat) {L : List UInt8}
    (h : (alignment - L.length % alignment) % alignment < fuel) :
    Appends L (padRounds alignment fuel) (zeros alignment L.length) () := by
  induction fuel generalizing L with
  | zero => omega
  | succ fuel ih =>
      rw [padRounds]
      refine (getWritePos_appends L).bind_nil ?_
      by_cases h0 : L.length % alignment = 0
      · have hp : zeros alignment L.length = [] := by simp [zeros, h0]
        rw [if_neg (by simpa using h0), hp]
        exact Appends.pure L ()
      · have hlt : L.length % alignment < alignment := Nat.mod_lt _ ha
        have hnext : (alignment - (L.length + 1) % alignment) % alignment + 1
            = (alignment - L.length % alignment) % alignment := by
          rw [Nat.mod_eq_of_lt (a := alignment - L.length % alignment) (by omega)]
          by_cases hlast : L.length % alignment + 1 = alignment
          · have hzero : (L.length + 1) % alignment = 0 := by
              rw [← Nat.mod_add_mod, hlast, Nat.mod_self]
            rw [hzero, Nat.sub_zero, Nat.mod_self]
            omega
          · have hstep : (L.length + 1) % alignment = L.length % alignment + 1 := by
              rw [← Nat.mod_add_mod, Nat.mod_eq_of_lt (by omega)]
            rw [hstep, Nat.mod_eq_of_lt (by omega)]
            omega
        have hp : zeros alignment L.length = [0] ++ zeros alignment (L ++ [0]).length := by
          rw [zeros, zeros, List.length_append, List.length_singleton, List.singleton_append,
            ← List.replicate_succ, hnext]
        rw [if_pos h0, hp]
        refine (put_emits 0 L).bind (ih ?_)
        rw [List.length_append, List.length_singleton]
        omega

/-- A loop that writes appends what its rounds append. -/
theorem forM_emits {xs : List α} {f : α → BufM Unit} {g : α → List UInt8}
    (h : ∀ x ∈ xs, Emits (f x) (g x)) : Emits (xs.forM f) (xs.flatMap g) := by
  induction xs with
  | nil => exact Emits.pure
  | cons x xs ih =>
      rw [List.flatMap_cons]
      exact (h x (by simp)).bind (ih fun y hy => h y (by simp [hy]))

/-! ## Running out of positions -/

theorem append_overflow {b : List UInt8} {s : ByteBuffer} {L : List UInt8} (hs : s.Holds L)
    (hL : L.length < 2 ^ 32) (hb : b.length < 2 ^ 32) (hbuf : s.buf = L)
    (h : 2 ^ 32 ≤ L.length + b.length) : append b s = .error .outOfBounds := by
  have hmod : b.length % 2 ^ 32 = b.length := Nat.mod_eq_of_lt hb
  have hw := hs.wpos_eq
  have hsize : s.size = L.length := by
    rw [ByteBuffer.size, hbuf]
    exact Nat.mod_eq_of_lt hL
  have hstop : (s.wpos + b.length) % 2 ^ 32 = L.length + b.length - 2 ^ 32 := by omega
  have hgrow : ¬ L.length < L.length + b.length - 2 ^ 32 := by omega
  simp only [append, putBytes, get, getThe, MonadStateOf.get, StateT.get, StateT.bind, bind,
    Except.bind, pure, Except.pure, hmod, hstop, hsize, hgrow, if_false]
  rw [if_neg (by rw [hbuf, hw]; omega)]
  rfl

/-- `w` appends exactly `bs`, and faults if that leads past the 32-bit positions. -/
structure Writes (w : BufM Unit) (bs : List UInt8) : Prop where
  emits : Emits w bs
  overflows : ∀ (s : ByteBuffer) (L : List UInt8), s.Holds L → s.buf = L → L.length < 2 ^ 32 →
    2 ^ 32 ≤ L.length + bs.length → w s = .error .outOfBounds

theorem Writes.pure : Writes (Pure.pure ()) [] where
  emits := .pure
  overflows s L _ _ hL h := by
    rw [List.length_nil] at h
    omega

theorem Writes.bind {w₁ w₂ : BufM Unit} {bs cs : List UInt8} (h₁ : Writes w₁ bs)
    (h₂ : Writes w₂ cs) : Writes (do w₁; w₂) (bs ++ cs) where
  emits := h₁.emits.bind h₂.emits
  overflows s L hs hbuf hL h := by
    rw [List.length_append] at h
    by_cases hfit : L.length + bs.length < 2 ^ 32
    · obtain ⟨s', hw, hs', hbuf'⟩ := h₁.emits L s hs hfit
      rw [BufM.bind_ok hw]
      refine h₂.overflows s' (L ++ bs) hs' (hbuf' (.inl hbuf)) ?_ ?_
      · rwa [List.length_append]
      · rw [List.length_append]
        omega
    · have herr := h₁.overflows s L hs hbuf hL (by omega)
      show (w₁ s >>= _) = _
      rw [herr]
      rfl

theorem append_writes {bs : List UInt8} (h : bs.length < 2 ^ 32) : Writes (append bs) bs where
  emits := append_emits bs
  overflows _ _ hs hbuf hL hlen := append_overflow hs hL h hbuf hlen

theorem putInt_writes (v : UInt32) : Writes (putInt v) (leBytes 4 v.toNat) :=
  append_writes (by rw [length_leBytes]; decide)

theorem putLong_writes (v : UInt64) : Writes (putLong v) (leBytes 8 v.toNat) :=
  append_writes (by rw [length_leBytes]; decide)

theorem forM_writes {xs : List α} {f : α → BufM Unit} {g : α → List UInt8}
    (h : ∀ x ∈ xs, Writes (f x) (g x)) : Writes (xs.forM f) (xs.flatMap g) := by
  induction xs with
  | nil => exact Writes.pure
  | cons x xs ih =>
      rw [List.flatMap_cons]
      exact (h x (by simp)).bind (ih fun y hy => h y (by simp [hy]))

theorem put_writes (b : UInt8) : Writes (put b) [b] :=
  append_writes (by rw [List.length_singleton]; decide)

theorem forM_put_writes (bs : List UInt8) : Writes (bs.forM put) bs := by
  have h : Writes (bs.forM put) (bs.flatMap fun b => [b]) := forM_writes fun b _ => put_writes b
  rwa [List.flatMap_singleton'] at h

/-- A NUL-free string and its terminator. -/
theorem putNullTerminatedString_writes {str : ByteString} (h : 0 ∉ str)
    (hlen : str.length < 2 ^ 31) : Writes (putNullTerminatedString str) (str ++ [0]) := by
  have ht : str.takeWhile (· ≠ 0) = str :=
    List.takeWhile_eq_self_iff.mpr (nonzero_of_nulFree h)
  unfold putNullTerminatedString
  simp only [ht]
  rw [if_pos hlen]
  exact (forM_put_writes str).bind (put_writes 0)

theorem putNullTerminatedString_emits {str : ByteString} (h : 0 ∉ str)
    (hlen : str.length < 2 ^ 31) : Emits (putNullTerminatedString str) (str ++ [0]) :=
  (putNullTerminatedString_writes h hlen).emits

/-! ## Writing without gaps -/

/-- On a buffer of `n` bytes with the cursor at their end, `w` appends exactly `bs` and answers
`a`. It goes through if `P` holds and the positions suffice, and only then. -/
structure Puts (n : Nat) (P : Prop) (w : BufM α) (bs : List UInt8) (a : α) : Prop where
  fits : ∀ s : ByteBuffer, s.buf.length = n → s.wpos = n → P → n + bs.length < 2 ^ 32 →
    ∃ s', w s = .ok (a, s') ∧ s'.buf = s.buf ++ bs ∧ s'.wpos = n + bs.length
  only : ∀ (s : ByteBuffer) (r : α × ByteBuffer), s.buf.length = n → s.wpos = n → n < 2 ^ 32 →
    w s = .ok r → P ∧ n + bs.length < 2 ^ 32

theorem Puts.pure (n : Nat) (a : α) : Puts n True (Pure.pure a) [] a where
  fits s _ hw _ _ := ⟨s, rfl, (List.append_nil _).symm, hw⟩
  only _ _ _ _ hn _ := ⟨trivial, hn⟩

theorem Puts.bind {n : Nat} {P Q : Prop} {w : BufM α} {f : α → BufM β} {bs cs : List UInt8}
    {a : α} {b : β} (h₁ : Puts n P w bs a) (h₂ : Puts (n + bs.length) Q (f a) cs b) :
    Puts n (P ∧ Q) (w >>= f) (bs ++ cs) b where
  fits s hlen hw hPQ hfit := by
    rw [List.length_append] at hfit
    obtain ⟨s₁, e₁, hb₁, hw₁⟩ := h₁.fits s hlen hw hPQ.1 (by omega)
    have hlen₁ : s₁.buf.length = n + bs.length := by rw [hb₁, List.length_append, hlen]
    obtain ⟨s₂, e₂, hb₂, hw₂⟩ := h₂.fits s₁ hlen₁ hw₁ hPQ.2 (by omega)
    refine ⟨s₂, ?_, ?_, ?_⟩
    · rw [BufM.bind_ok e₁, e₂]
    · rw [hb₂, hb₁, List.append_assoc]
    · rw [hw₂, List.length_append, Nat.add_assoc]
  only s r hlen hw hn h := by
    obtain ⟨a₁, s₁, hw₁, hf⟩ := BufM.bind_ok_iff.mp h
    obtain ⟨hP, hfit⟩ := h₁.only s _ hlen hw hn hw₁
    obtain ⟨s₁', e₁, hb₁, hpos⟩ := h₁.fits s hlen hw hP hfit
    obtain ⟨rfl, rfl⟩ := Prod.mk.inj (Except.ok.inj (hw₁.symm.trans e₁))
    have hlen₁ : s₁.buf.length = n + bs.length := by rw [hb₁, List.length_append, hlen]
    obtain ⟨hQ, hfit₂⟩ := h₂.only s₁ r hlen₁ hpos hfit hf
    refine ⟨⟨hP, hQ⟩, ?_⟩
    rw [List.length_append]
    omega

theorem Puts.congr {n : Nat} {P Q : Prop} {w : BufM α} {bs : List UInt8} {a : α}
    (h : Puts n P w bs a) (hPQ : P ↔ Q) : Puts n Q w bs a := by
  rwa [← propext hPQ]

/-- A step on which nothing depends. -/
theorem Puts.then {n : Nat} {P : Prop} {w : BufM α} {f : α → BufM β} {bs cs : List UInt8}
    {a : α} {b : β} (h₁ : Puts n True w bs a) (h₂ : Puts (n + bs.length) P (f a) cs b) :
    Puts n P (w >>= f) (bs ++ cs) b :=
  (h₁.bind h₂).congr (iff_of_eq (true_and P))

/-- A step that writes nothing. -/
theorem Puts.bind_nil {n : Nat} {P : Prop} {w : BufM α} {f : α → BufM β} {cs : List UInt8}
    {a : α} {b : β} (h₁ : Puts n True w [] a) (h₂ : Puts n P (f a) cs b) :
    Puts n P (w >>= f) cs b := by
  have h := h₁.then (f := f) h₂
  exact h

theorem Puts.map {n : Nat} {P : Prop} {w : BufM α} {bs : List UInt8} {a : α}
    (h : Puts n P w bs a) (f : α → β) : Puts n P (w >>= fun x => Pure.pure (f x)) bs (f a) := by
  have h' := h.bind (f := fun x => Pure.pure (f x)) (Puts.pure _ (f a))
  rw [List.append_nil] at h'
  exact h'.congr (iff_of_eq (and_true P))

theorem getWritePos_puts (n : Nat) : Puts n True getWritePos [] n where
  fits s _ hw _ _ := by
    refine ⟨s, ?_, (List.append_nil _).symm, hw⟩
    show Except.ok (s.wpos, s) = _
    rw [hw]
  only _ _ _ _ hn _ := ⟨trivial, hn⟩

theorem Writes.puts {w : BufM Unit} {bs : List UInt8} (h : Writes w bs) (n : Nat) :
    Puts n True w bs () where
  fits s hlen hw _ hfit := by
    have hs : s.Holds s.buf := ⟨by rw [hw, hlen]; simp, by rw [hw, hlen]⟩
    obtain ⟨s', e, hs', hbuf⟩ := h.emits s.buf s hs (by rw [hlen]; exact hfit)
    refine ⟨s', e, hbuf (.inl rfl), ?_⟩
    rw [hs'.wpos_eq, List.length_append, hlen]
  only s r hlen hw hn e := by
    have hs : s.Holds s.buf := ⟨by rw [hw, hlen]; simp, by rw [hw, hlen]⟩
    refine ⟨trivial, Nat.not_le.mp ?_⟩
    intro hover
    rw [h.overflows s s.buf hs rfl (by rw [hlen]; exact hn) (by rw [hlen]; exact hover)] at e
    cases e

theorem putNullTerminatedString_puts (n : Nat) (str : ByteString) :
    Puts n ((str.takeWhile (· ≠ 0)).length < 2 ^ 31) (putNullTerminatedString str)
      (str.takeWhile (· ≠ 0) ++ [0]) () := by
  unfold putNullTerminatedString
  dsimp only
  by_cases hlen : (str.takeWhile (· ≠ 0)).length < 2 ^ 31
  · rw [if_pos hlen]
    exact (((forM_put_writes _).bind (put_writes 0)).puts n).congr (iff_of_true trivial hlen)
  · rw [if_neg hlen]
    refine ⟨?_, ?_⟩
    · intro s _ _ h _
      exact absurd h hlen
    · intro s r _ _ _ h
      cases h

end Kyber.ModLoader
