import Kyber.ModLoader.DbObject
import Kyber.Proofs.ByteBuffer

/-!
# `Load` comes to an end

The sizes of containers and strings, and how deep the tree is, come from the bytes that are
read, and any bytes may be there. What bounds the work is that every call reads a byte and that
past the end all bytes are zero: a flag byte of zero is no object, which ends the loop that
asked for one, and a zero ends a number.

So the cursor moves forward (`ForwardBy`), a nested call starts behind the byte that the calling
one has read, and none is made where nothing is left. The bounds in the model are never
reached, and what they are does not matter.
-/

namespace Kyber.ModLoader

open Kyber.Lib

variable {α β : Type}

/-! ## Moving forward -/

/-- The buffer stays, and the cursor does not go back. -/
structure Onward (s s' : ByteBuffer) : Prop where
  buf : s'.buf = s.buf
  rpos : s.rpos ≤ s'.rpos

namespace Onward

theorem refl (s : ByteBuffer) : Onward s s := ⟨rfl, Nat.le_refl _⟩

theorem trans {s₁ s₂ s₃ : ByteBuffer} (h₁ : Onward s₁ s₂) (h₂ : Onward s₂ s₃) : Onward s₁ s₃ :=
  ⟨h₂.buf.trans h₁.buf, Nat.le_trans h₁.rpos h₂.rpos⟩

end Onward

/-- Where `r` answers, the cursor has gone at least `n` bytes forward. -/
def ForwardBy (n : Nat) (r : BufM α) : Prop :=
  ∀ s a s', r s = .ok (a, s') → s'.buf = s.buf ∧ s.rpos + n ≤ s'.rpos

/-- `r` does not stop at a bound of the model. -/
def Ends (r : BufM α) (s : ByteBuffer) : Prop := r s ≠ .error .fuel

section

variable {m n : Nat} {r : BufM α} {f : α → BufM β} {s : ByteBuffer}

theorem ForwardBy.onward (h : ForwardBy n r) {a : α} {s' : ByteBuffer}
    (hr : r s = .ok (a, s')) : Onward s s' := by
  obtain ⟨hbuf, hrpos⟩ := h s a s' hr
  exact ⟨hbuf, by omega⟩

theorem ForwardBy.mono (h : ForwardBy n r) (hle : m ≤ n) : ForwardBy m r := by
  intro s a s' hr
  obtain ⟨hbuf, hrpos⟩ := h s a s' hr
  exact ⟨hbuf, by omega⟩

theorem ForwardBy.bind (hr : ForwardBy m r) (hf : ∀ a, ForwardBy n (f a)) :
    ForwardBy (m + n) (r >>= f) := by
  intro s b s' h
  obtain ⟨a, s₁, ha, hb⟩ := BufM.bind_ok_iff.mp h
  obtain ⟨hbuf₁, hrpos₁⟩ := hr s a s₁ ha
  obtain ⟨hbuf₂, hrpos₂⟩ := hf a s₁ b s' hb
  exact ⟨hbuf₂.trans hbuf₁, by omega⟩

theorem forwardBy_pure (a : α) : ForwardBy 0 (Pure.pure a : BufM α) := by
  intro s b s' h
  cases h
  exact ⟨rfl, Nat.le_refl _⟩

theorem forwardBy_throw (n : Nat) (e : Fault) : ForwardBy n (throw e : BufM α) := by
  intro s b s' h
  cases h

theorem forwardBy_get : ForwardBy 0 (get : BufM ByteBuffer) := by
  intro s b s' h
  cases h
  exact ⟨rfl, Nat.le_refl _⟩

/-- The last step only makes the answer of what has been read. -/
theorem ForwardBy.map (h : ForwardBy n r) (g : α → β) :
    ForwardBy n (r >>= fun a => Pure.pure (g a)) :=
  h.bind fun a => forwardBy_pure (g a)

theorem Ends.bind (hr : Ends r s) (hf : ∀ a s', r s = .ok (a, s') → Ends (f a) s') :
    Ends (r >>= f) s := by
  intro h
  cases hrun : r s with
  | error e =>
      cases (BufM.bind_error hrun).symm.trans h
      exact hr hrun
  | ok p =>
      obtain ⟨a, s'⟩ := p
      rw [BufM.bind_ok hrun] at h
      exact hf a s' hrun h

theorem Ends.of_ok {a : α} (s' : ByteBuffer) (h : r s = .ok (a, s')) : Ends r s := by
  intro hfuel
  cases h.symm.trans hfuel

theorem ends_pure (a : α) (s : ByteBuffer) : Ends (Pure.pure a : BufM α) s :=
  Ends.of_ok s rfl

theorem Ends.map (h : Ends r s) (g : α → β) : Ends (r >>= fun a => Pure.pure (g a)) s :=
  h.bind fun a s' _ => ends_pure (g a) s'

end

/-! ## Reads -/

theorem getByte_run (s : ByteBuffer) :
    getByte s = .ok
      ((if s.rpos + 1 ≤ s.buf.length then s.rest.take 1 else List.replicate 1 0).headD 0,
        s.skip 1) := rfl

/-- Past the end there are zeros. -/
theorem getByte_past_end {s s' : ByteBuffer} {b : UInt8} (h : getByte s = .ok (b, s'))
    (hend : s.buf.length ≤ s.rpos) : b = 0 := by
  rw [getByte_run, if_neg (by omega)] at h
  cases h
  rfl

theorem forwardBy_getByte : ForwardBy 1 getByte := by
  intro s b s' h
  rw [getByte_run] at h
  cases h
  exact ⟨rfl, Nat.le_refl _⟩

theorem ends_getByte (s : ByteBuffer) : Ends getByte s := Ends.of_ok _ (getByte_run s)

theorem forwardBy_read (n : Nat) : ForwardBy n (read n) := by
  intro s b s' h
  cases h
  exact ⟨rfl, Nat.le_refl _⟩

theorem ends_read (n : Nat) (s : ByteBuffer) : Ends (read n) s := Ends.of_ok (s.skip n) rfl

theorem forwardBy_getBytes (n : Nat) : ForwardBy n (getBytes n) := by
  induction n with
  | zero => exact forwardBy_pure []
  | succ n ih =>
      exact (forwardBy_getByte.bind fun b => ih.map fun bs => b :: bs).mono (by omega)

theorem ends_getBytes (n : Nat) (s : ByteBuffer) : Ends (getBytes n) s := by
  induction n generalizing s with
  | zero => exact ends_pure [] s
  | succ n ih => exact (ends_getByte s).bind fun b s' _ => (ih s').map fun bs => b :: bs

theorem forwardBy_getNullTerminatedString : ForwardBy 0 getNullTerminatedString := by
  intro s b s' h
  cases h
  exact ⟨rfl, Nat.le_add_right _ _⟩

theorem ends_getNullTerminatedString (s : ByteBuffer) : Ends getNullTerminatedString s :=
  Ends.of_ok (s.skip ((s.rest.takeWhile (· ≠ 0)).length + 1)) rfl

/-! ## Numbers -/

theorem forwardBy_read7BitLoop (n : Nat) (result : UInt32) (i : Nat) :
    ForwardBy 0 (read7BitLoop n result i) := by
  induction n generalizing result i with
  | zero => exact forwardBy_throw 0 .fuel
  | succ n ih =>
      refine (forwardBy_getByte.bind (n := 0) fun b => ?_).mono (Nat.zero_le _)
      dsimp only
      split
      · exact forwardBy_pure _
      · exact ih _ _

/-- A zero byte ends a number. -/
theorem ends_read7BitLoop {n : Nat} {s : ByteBuffer} (h : s.rest.length < n) (result : UInt32)
    (i : Nat) : Ends (read7BitLoop n result i) s := by
  induction n generalizing result i s with
  | zero => omega
  | succ n ih =>
      refine (ends_getByte s).bind fun b s' hb => ?_
      dsimp only
      split
      · exact ends_pure _ _
      next hmore =>
        refine ih ?_ _ _
        obtain ⟨hbuf, hrpos⟩ := forwardBy_getByte s b s' hb
        have hinside : s.rpos < s.buf.length := by
          refine Nat.lt_of_not_le fun hend => hmore ?_
          rw [getByte_past_end hb hend]
          rfl
        simp only [ByteBuffer.rest, List.length_drop] at h ⊢
        rw [hbuf]
        omega

theorem forwardBy_read7Bit : ForwardBy 0 (do read7BitLoop ((← get).rest.length + 1) 0 0) :=
  forwardBy_get.bind fun _ => forwardBy_read7BitLoop _ 0 0

theorem ends_read7Bit (s : ByteBuffer) : Ends (do read7BitLoop ((← get).rest.length + 1) 0 0) s :=
  (Ends.of_ok s rfl).bind fun s₀ s' h => by
    cases h
    exact ends_read7BitLoop (Nat.lt_succ_self _) 0 0

/-! ## The loop of a container -/

section

variable {item item' : BufM (Option (ByteString × DbObject))} {offset size n : Nat}
  {values : List (ByteString × DbObject)} {s : ByteBuffer}

theorem loadItems_zero (item : BufM (Option (ByteString × DbObject))) (offset size : Nat)
    (values : List (ByteString × DbObject)) (s : ByteBuffer) :
    loadItems item offset size 0 values s =
      if s.rpos - offset < size then .error .fuel else .ok (values, s) := by
  change (if s.rpos - offset < size then _ else _ : BufM _) s = _
  split <;> rfl

/-- One round. -/
theorem loadItems_succ (item : BufM (Option (ByteString × DbObject))) (offset size n : Nat)
    (values : List (ByteString × DbObject)) (s : ByteBuffer) :
    loadItems item offset size (n + 1) values s =
      if s.rpos - offset < size then
        (item >>= fun
          | none => return values
          | some value => loadItems item offset size n (values ++ [value])) s
      else .ok (values, s) := by
  change (if s.rpos - offset < size then _ else _ : BufM _) s = _
  split <;> rfl

theorem forwardBy_loadItems (hitem : ForwardBy 0 item) :
    ForwardBy 0 (loadItems item offset size n values) := by
  induction n generalizing values with
  | zero =>
      intro s a s' h
      rw [loadItems_zero] at h
      split at h
      · cases h
      · cases h
        exact ⟨rfl, Nat.le_refl _⟩
  | succ n ih =>
      intro s a s' h
      rw [loadItems_succ] at h
      split at h
      · refine (hitem.bind (n := 0) fun value => ?_) s a s' h
        cases value with
        | none => exact forwardBy_pure values
        | some value => exact ih
      · cases h
        exact ⟨rfl, Nat.le_refl _⟩

/-- Each item takes a byte, so there are not more rounds than the size says. -/
theorem ends_loadItems (hitem : ForwardBy 1 item) (hends : ∀ s', Onward s s' → Ends item s')
    (hoffset : offset ≤ s.rpos) (hn : size ≤ s.rpos - offset + n) :
    Ends (loadItems item offset size n values) s := by
  induction n generalizing values s with
  | zero =>
      rw [Ends, loadItems_zero, if_neg (by omega)]
      exact nofun
  | succ n ih =>
      rw [Ends, loadItems_succ]
      split
      next hmore =>
        refine (hends s (.refl s)).bind fun value s' hs' => ?_
        obtain ⟨hbuf, hrpos⟩ := hitem s value s' hs'
        cases value with
        | none => exact ends_pure values s'
        | some value =>
            exact ih (fun s'' hs'' => hends s'' ((hitem.onward hs').trans hs'')) (by omega)
              (by omega)
      · exact nofun

/-- The loop makes its calls from its own place on. -/
theorem loadItems_congr (hitem : ForwardBy 0 item)
    (heq : ∀ s', Onward s s' → item s' = item' s') :
    loadItems item offset size n values s = loadItems item' offset size n values s := by
  induction n generalizing values s with
  | zero => rfl
  | succ n ih =>
      rw [loadItems_succ, loadItems_succ]
      split
      · have hhere := heq s (.refl s)
        cases hrun : item s with
        | error e => rw [BufM.bind_error hrun, BufM.bind_error (hhere.symm.trans hrun)]
        | ok p =>
            obtain ⟨value, s'⟩ := p
            rw [BufM.bind_ok hrun, BufM.bind_ok (hhere.symm.trans hrun)]
            cases value with
            | none => rfl
            | some value =>
                exact ih fun s'' hs'' => heq s'' ((hitem.onward hrun).trans hs'')
      · rfl

end

/-! ## One call -/

/-- `Load` with what its nested calls do. -/
def loadLevel (nested : BufM (Option DbObject × ByteString)) (outputName : ByteString) :
    BufM (Option DbObject × ByteString) := do
  let flags ← getByte
  let type := DbType.ofByte (flags &&& 0x1F)
  if type = .invalid then
    return (none, outputName)
  let outputName ← if flags &&& 0x80 = 0 then getNullTerminatedString
    else pure outputName
  let obj ← loadPayload (nestedItem nested) type
  return (obj, outputName)

theorem loadTo_succ (depth : Nat) (outputName : ByteString) :
    DbObject.loadTo (depth + 1) outputName = loadLevel (DbObject.loadTo depth []) outputName := rfl

section

variable {item item' : BufM (Option (ByteString × DbObject))} {type : DbType} {s : ByteBuffer}

theorem forwardBy_container (hitem : ForwardBy 0 item)
    (f : List (ByteString × DbObject) → Option DbObject) :
    ForwardBy 0 (do
      let size ← read7BitEncodedLong
      let offset ← getReadPos
      let values ← loadItems item offset size.toNat size.toNat []
      return f values) :=
  forwardBy_read7Bit.bind fun _ => (forwardBy_get.map fun s => s.rpos).bind fun _ =>
    (forwardBy_loadItems hitem).map f

theorem ends_container (hitem : ForwardBy 1 item) (hends : ∀ s', Onward s s' → Ends item s')
    (f : List (ByteString × DbObject) → Option DbObject) :
    Ends (do
      let size ← read7BitEncodedLong
      let offset ← getReadPos
      let values ← loadItems item offset size.toNat size.toNat []
      return f values) s := by
  refine (ends_read7Bit s).bind fun size s₁ hs₁ => ?_
  have hbehind := forwardBy_read7Bit.onward hs₁
  have hloop : Ends (loadItems item s₁.rpos size.toNat size.toNat []) s₁ :=
    ends_loadItems hitem (fun s' hs' => hends s' (hbehind.trans hs')) (Nat.le_refl _) (by omega)
  exact hloop.map f

theorem container_congr (hitem : ForwardBy 0 item)
    (heq : ∀ s', Onward s s' → item s' = item' s')
    (f : List (ByteString × DbObject) → Option DbObject) :
    (do
      let size ← read7BitEncodedLong
      let offset ← getReadPos
      let values ← loadItems item offset size.toNat size.toNat []
      return f values : BufM _) s =
    (do
      let size ← read7BitEncodedLong
      let offset ← getReadPos
      let values ← loadItems item' offset size.toNat size.toNat []
      return f values : BufM _) s := by
  cases hrun : read7BitEncodedLong s with
  | error e => rw [BufM.bind_error hrun, BufM.bind_error hrun]
  | ok p =>
      obtain ⟨size, s₁⟩ := p
      rw [BufM.bind_ok hrun, BufM.bind_ok hrun]
      have hbehind := forwardBy_read7Bit.onward hrun
      have hloop : loadItems item s₁.rpos size.toNat size.toNat [] s₁ =
          loadItems item' s₁.rpos size.toNat size.toNat [] s₁ :=
        loadItems_congr hitem fun s' hs' => heq s' (hbehind.trans hs')
      change (loadItems item s₁.rpos size.toNat size.toNat [] s₁ >>= _) =
        (loadItems item' s₁.rpos size.toNat size.toNat [] s₁ >>= _)
      rw [hloop]

theorem forwardBy_loadPayload (hitem : ForwardBy 0 item) : ForwardBy 0 (loadPayload item type) := by
  cases type with
  | list => exact forwardBy_container hitem _
  | object => exact forwardBy_container hitem _
  | boolean => exact (forwardBy_getByte.map _).mono (Nat.zero_le 1)
  | string =>
      refine forwardBy_read7Bit.bind (n := 0) fun size => ?_
      split
      · exact ((forwardBy_getBytes _).map _).mono (Nat.zero_le _)
      · exact forwardBy_throw 0 .overflow
  | int => exact (((forwardBy_read 4).map _).map _).mono (Nat.zero_le 4)
  | long => exact (((forwardBy_read 8).map _).map _).mono (Nat.zero_le 8)
  | float => exact (((forwardBy_read 4).map _).map _).mono (Nat.zero_le 4)
  | double => exact (((forwardBy_read 8).map _).map _).mono (Nat.zero_le 8)
  | guid => exact forwardBy_throw 0 .unimplemented
  | sha1 => exact forwardBy_throw 0 .unimplemented
  | byteArray => exact forwardBy_throw 0 .unimplemented
  | invalid => exact forwardBy_pure none
  | unknown code => exact forwardBy_pure none

theorem ends_loadPayload (hitem : ForwardBy 1 item) (hends : ∀ s', Onward s s' → Ends item s') :
    Ends (loadPayload item type) s := by
  cases type with
  | list => exact ends_container hitem hends _
  | object => exact ends_container hitem hends _
  | boolean => exact (ends_getByte s).map _
  | string =>
      refine (ends_read7Bit s).bind fun size s' _ => ?_
      split
      · exact (ends_getBytes _ s').map _
      · exact nofun
  | int => exact ((ends_read 4 s).map _).map _
  | long => exact ((ends_read 8 s).map _).map _
  | float => exact ((ends_read 4 s).map _).map _
  | double => exact ((ends_read 8 s).map _).map _
  | guid => exact nofun
  | sha1 => exact nofun
  | byteArray => exact nofun
  | invalid => exact ends_pure none s
  | unknown code => exact ends_pure none s

theorem loadPayload_congr (hitem : ForwardBy 0 item)
    (heq : ∀ s', Onward s s' → item s' = item' s') :
    loadPayload item type s = loadPayload item' type s := by
  cases type with
  | list => exact container_congr hitem heq _
  | object => exact container_congr hitem heq _
  | boolean | string | int | long | float | double | guid | sha1 | byteArray | invalid | unknown =>
      rfl

end

section

variable {nested nested' : BufM (Option DbObject × ByteString)} {outputName : ByteString}
  {s : ByteBuffer}

def readOutputName (outputName : ByteString) (flags : UInt8) : BufM ByteString :=
  if flags &&& 0x80 = 0 then getNullTerminatedString else pure outputName

/-- What a call does behind its flag byte. -/
def loadNamed (nested : BufM (Option DbObject × ByteString)) (outputName : ByteString)
    (flags : UInt8) : BufM (Option DbObject × ByteString) := do
  let outputName ← readOutputName outputName flags
  let obj ← loadPayload (nestedItem nested) (DbType.ofByte (flags &&& 0x1F))
  return (obj, outputName)

theorem loadLevel_eq (nested : BufM (Option DbObject × ByteString)) (outputName : ByteString) :
    loadLevel nested outputName = getByte >>= fun flags =>
      if DbType.ofByte (flags &&& 0x1F) = .invalid then pure (none, outputName)
      else loadNamed nested outputName flags := by
  refine congrArg (getByte >>= ·) (funext fun flags => ?_)
  dsimp only
  rw [loadNamed, readOutputName]
  by_cases hnamed : flags &&& 0x80 = 0
  · simp only [if_pos hnamed]
  · simp only [if_neg hnamed]

theorem forwardBy_readOutputName (flags : UInt8) : ForwardBy 0 (readOutputName outputName flags) := by
  rw [readOutputName]
  split
  · exact forwardBy_getNullTerminatedString
  · exact forwardBy_pure outputName

theorem ends_readOutputName (flags : UInt8) : Ends (readOutputName outputName flags) s := by
  rw [readOutputName]
  split
  · exact ends_getNullTerminatedString s
  · exact ends_pure outputName s

theorem forwardBy_nestedItem {n : Nat} (h : ForwardBy n nested) :
    ForwardBy n (nestedItem nested) := h.map _

theorem forwardBy_loadLevel (hnested : ForwardBy 0 nested) :
    ForwardBy 1 (loadLevel nested outputName) := by
  rw [loadLevel_eq]
  refine forwardBy_getByte.bind (n := 0) fun flags => ?_
  split
  · exact forwardBy_pure _
  · exact (forwardBy_readOutputName flags).bind fun _ =>
      (forwardBy_loadPayload (forwardBy_nestedItem hnested)).map _

theorem ends_loadNamed (hnested : ForwardBy 1 nested)
    (hends : ∀ s', Onward s s' → Ends nested s') (flags : UInt8) :
    Ends (loadNamed nested outputName flags) s := by
  refine (ends_readOutputName flags).bind fun name s₁ hs₁ => ?_
  have hbehind := (forwardBy_readOutputName flags).onward hs₁
  have hpayload : Ends (loadPayload (nestedItem nested) (DbType.ofByte (flags &&& 0x1F))) s₁ :=
    ends_loadPayload (forwardBy_nestedItem hnested) fun s' hs' =>
      (hends s' (hbehind.trans hs')).map _
  exact hpayload.map _

theorem loadNamed_congr (hnested : ForwardBy 0 nested)
    (heq : ∀ s', Onward s s' → nested s' = nested' s') (flags : UInt8) :
    loadNamed nested outputName flags s = loadNamed nested' outputName flags s := by
  rw [loadNamed, loadNamed]
  cases hrun : readOutputName outputName flags s with
  | error e => rw [BufM.bind_error hrun, BufM.bind_error hrun]
  | ok p =>
      obtain ⟨name, s₁⟩ := p
      rw [BufM.bind_ok hrun, BufM.bind_ok hrun]
      have hbehind := (forwardBy_readOutputName flags).onward hrun
      have hitem : ∀ s', Onward s₁ s' → nestedItem nested s' = nestedItem nested' s' := by
        intro s' hs'
        change (nested s' >>= _) = (nested' s' >>= _)
        rw [heq s' (hbehind.trans hs')]
      change (loadPayload (nestedItem nested) _ s₁ >>= _) =
        (loadPayload (nestedItem nested') _ s₁ >>= _)
      rw [loadPayload_congr (forwardBy_nestedItem hnested) hitem]

/-- A flag byte that is a type's is in the buffer, and what comes is behind it. -/
theorem inside_of_valid {s₁ : ByteBuffer} {flags : UInt8} (h : getByte s = .ok (flags, s₁))
    (hvalid : DbType.ofByte (flags &&& 0x1F) ≠ .invalid) : s.rpos < s.buf.length := by
  refine Nat.lt_of_not_le fun hend => hvalid ?_
  rw [getByte_past_end h hend]
  rfl

/-- Nested calls are made where a byte has been read. -/
theorem ends_loadLevel (hnested : ForwardBy 1 nested)
    (hends : s.rpos < s.buf.length → ∀ s', s'.buf = s.buf → s.rpos < s'.rpos → Ends nested s') :
    Ends (loadLevel nested outputName) s := by
  rw [loadLevel_eq]
  refine (ends_getByte s).bind fun flags s₁ hs₁ => ?_
  obtain ⟨hbuf, hrpos⟩ := forwardBy_getByte s flags s₁ hs₁
  split
  · exact ends_pure _ s₁
  next hvalid =>
    refine ends_loadNamed hnested (fun s' hs' => ?_) flags
    have hle := hs'.rpos
    exact hends (inside_of_valid hs₁ hvalid) s' (hs'.buf.trans hbuf) (by omega)

theorem loadLevel_congr (hnested : ForwardBy 0 nested)
    (heq : s.rpos < s.buf.length → ∀ s', s'.buf = s.buf → s.rpos < s'.rpos →
      nested s' = nested' s') :
    loadLevel nested outputName s = loadLevel nested' outputName s := by
  obtain ⟨flags, hflags⟩ : ∃ flags, getByte s = .ok (flags, s.skip 1) := ⟨_, getByte_run s⟩
  rw [loadLevel_eq, loadLevel_eq, BufM.bind_ok hflags, BufM.bind_ok hflags]
  split
  · rfl
  next hvalid =>
    refine loadNamed_congr hnested (fun s' hs' => ?_) flags
    have hle : s.rpos + 1 ≤ s'.rpos := hs'.rpos
    exact heq (inside_of_valid hflags hvalid) s' hs'.buf (by omega)

end

/-! ## The recursion -/

theorem forwardBy_loadTo (depth : Nat) (outputName : ByteString) :
    ForwardBy 1 (DbObject.loadTo depth outputName) := by
  induction depth generalizing outputName with
  | zero => exact forwardBy_throw 1 .fuel
  | succ depth ih =>
      rw [loadTo_succ]
      exact forwardBy_loadLevel ((ih []).mono (Nat.zero_le 1))

/-- Behind a byte that has been read, less is left. -/
theorem length_rest_lt {s s' : ByteBuffer} (hinside : s.rpos < s.buf.length)
    (hbuf : s'.buf = s.buf) (hrpos : s.rpos < s'.rpos) : s'.rest.length < s.rest.length := by
  simp only [ByteBuffer.rest, List.length_drop, hbuf]
  omega

theorem ends_loadTo {depth : Nat} {s : ByteBuffer} (h : s.rest.length < depth)
    (outputName : ByteString) : Ends (DbObject.loadTo depth outputName) s := by
  induction depth generalizing s outputName with
  | zero => omega
  | succ depth ih =>
      rw [loadTo_succ]
      refine ends_loadLevel (forwardBy_loadTo depth []) fun hinside s' hbuf hrpos => ?_
      have hless := length_rest_lt hinside hbuf hrpos
      exact ih (by omega) []

/-- Two bounds that are deep enough make no difference. -/
theorem loadTo_indep {depth depth' : Nat} {s : ByteBuffer} (h : s.rest.length < depth)
    (h' : s.rest.length < depth') (outputName : ByteString) :
    DbObject.loadTo depth outputName s = DbObject.loadTo depth' outputName s := by
  induction depth generalizing s depth' outputName with
  | zero => omega
  | succ depth ih =>
      cases depth' with
      | zero => omega
      | succ depth' =>
          rw [loadTo_succ, loadTo_succ]
          refine loadLevel_congr ((forwardBy_loadTo depth []).mono (Nat.zero_le 1))
            fun hinside s' hbuf hrpos => ?_
          have hless := length_rest_lt hinside hbuf hrpos
          exact ih (by omega) (by omega) []

/-- A call that fails, by a bound of the model, unless it starts behind the position. -/
def startsBehind (rpos : Nat) (nested : BufM (Option DbObject × ByteString)) :
    BufM (Option DbObject × ByteString) := do
  if rpos < (← getReadPos) then nested else throw .fuel

theorem startsBehind_run {rpos : Nat} {nested : BufM (Option DbObject × ByteString)}
    {s : ByteBuffer} (h : rpos < s.rpos) : startsBehind rpos nested s = nested s := by
  change (if rpos < s.rpos then nested else throw .fuel : BufM _) s = _
  rw [if_pos h]

/-- The call ends, with an object or without, or in a failure that is the code's. Its nested
calls are calls of the same kind, to any depth, and each starts behind the place where it has
started itself; they need no more levels than there are bytes left, and one. -/
structure Terminates (outputName : ByteString) (s : ByteBuffer) : Prop where
  ends : DbObject.load outputName s ≠ .error .fuel
  levels : ∀ depth, s.rest.length + 1 ≤ depth →
    DbObject.loadTo depth outputName s = DbObject.load outputName s
  nested : DbObject.load outputName s =
    loadLevel (startsBehind s.rpos (DbObject.load [])) outputName s

/-- Every call ends, whatever the bytes are and wherever it starts. -/
theorem load_terminates (outputName : ByteString) (s : ByteBuffer) : Terminates outputName s := by
  have hload : ∀ outputName s, DbObject.load outputName s =
      DbObject.loadTo (s.rest.length + 1) outputName s := fun _ _ => rfl
  refine ⟨ends_loadTo (Nat.lt_succ_self _) outputName, fun depth hdepth => ?_, ?_⟩
  · exact loadTo_indep hdepth (Nat.lt_succ_self _) outputName
  · rw [hload, loadTo_succ]
    refine loadLevel_congr ((forwardBy_loadTo _ []).mono (Nat.zero_le 1))
      fun hinside s' hbuf hrpos => ?_
    have hless := length_rest_lt hinside hbuf hrpos
    rw [startsBehind_run hrpos, hload]
    exact loadTo_indep hless (Nat.lt_succ_self _) []

end Kyber.ModLoader
