import Kyber.ModLoader.DbObject
import Kyber.Proofs.ByteBuffer

/-!
# DbObject trees survive `Save` and `Load`

The format is described once, as a function from trees to bytes (`bytes`), and
the two directions are compared with it. `Save` produces exactly those bytes
while every buffer stays below 4 GiB; `Load` started on those bytes consumes
exactly them, whatever follows, and rebuilds the tree and the name.

The reading direction is the one with an argument in it. A container's loop
stops for one of two reasons, the size or the closing zero, and on saved bytes
it must always be the zero: the size counts it, so before the zero the loop
condition holds, and the nested call that reads the zero consumes it and answers
no object. `loadItems_reads` is that argument, for any item decoder that reads
what it should; the tree induction then supplies the decoder one level down.
-/

namespace Kyber.ModLoader

open Kyber.Lib

/-! ## The format -/

/-- The flag byte and the name. -/
def headerBytes (name : ByteString) (type : DbType) : List UInt8 :=
  if name.isEmpty then [0x80 ||| type.toByte] else type.toByte :: (name ++ [0])

/-- A container's payload around the bytes of its items. -/
def containerBytes (items : List UInt8) : List UInt8 :=
  septets (items.length + 1) ++ (items ++ [0])

mutual

def DbObject.payload : DbObject → List UInt8
  | .boolean val => [if val then 0x01 else 0x00]
  | .string str => septets str.length ++ str
  | .int val => leBytes 4 val.toNat
  | .list items => containerBytes (itemsBytes items)
  | .map entries => containerBytes (entriesBytes entries)
  | .null | .long _ | .float _ | .double _ | .byteArray _ | .guid _ | .sha1 _ => []

def itemsBytes : List DbObject → List UInt8
  | [] => []
  | item :: items => (headerBytes [] item.getType ++ item.payload) ++ itemsBytes items

def entriesBytes : List (ByteString × DbObject) → List UInt8
  | [] => []
  | (key, val) :: entries =>
      (headerBytes key val.getType ++ val.payload) ++ entriesBytes entries

end

/-- The bytes of a tree under a name. -/
def DbObject.bytes (obj : DbObject) (name : ByteString) : List UInt8 :=
  headerBytes name obj.getType ++ obj.payload

theorem headerBytes_ne_nil (name : ByteString) (type : DbType) :
    headerBytes name type ≠ [] := by
  unfold headerBytes
  split <;> simp

theorem length_le_headerBytes (name : ByteString) (type : DbType) :
    name.length ≤ (headerBytes name type).length := by
  unfold headerBytes
  split
  · next h => simp [List.isEmpty_iff.mp h]
  · rw [List.length_cons, List.length_append]
    omega

theorem DbObject.bytes_ne_nil (obj : DbObject) (name : ByteString) : obj.bytes name ≠ [] := by
  simp [DbObject.bytes, headerBytes_ne_nil]

theorem itemsBytes_eq (items : List DbObject) :
    itemsBytes items
      = (items.map fun item => (([] : ByteString), item)).flatMap fun e => e.2.bytes e.1 := by
  induction items with
  | nil => rfl
  | cons item items ih =>
      rw [itemsBytes, ih]
      rfl

theorem entriesBytes_eq (entries : List (ByteString × DbObject)) :
    entriesBytes entries = entries.flatMap fun e => e.2.bytes e.1 := by
  induction entries with
  | nil => rfl
  | cons e entries ih =>
      obtain ⟨key, val⟩ := e
      rw [entriesBytes, ih]
      rfl

/-! ## The trees that can be stored

Booleans, 32-bit integers, strings, lists and maps; `str` bounds the strings
and `key` the keys of the maps. The keys ascend because a `DbMap` is a
`std::map`. -/

mutual

def DbObject.Storable (str key : Nat) : DbObject → Prop
  | .boolean _ | .int _ => True
  | .string val => 0 ∉ val ∧ val.length < str
  | .list items => ItemsStorable str key items
  | .map entries => EntriesStorable str key entries ∧
      entries.Pairwise fun a b => compare a.1 b.1 = .lt
  | .null | .long _ | .float _ | .double _ | .byteArray _ | .guid _ | .sha1 _ => False

def ItemsStorable (str key : Nat) : List DbObject → Prop
  | [] => True
  | item :: items => item.Storable str key ∧ ItemsStorable str key items

def EntriesStorable (str key : Nat) : List (ByteString × DbObject) → Prop
  | [] => True
  | (k, val) :: entries =>
      (0 ∉ k ∧ k.length < key ∧ val.Storable str key) ∧ EntriesStorable str key entries

end

mutual

/-- Strings and keys are shorter than the bytes they stand in. -/
theorem DbObject.Storable.of_length {str key n : Nat} {obj : DbObject}
    (h : obj.Storable str key) (hlen : obj.payload.length < n) : obj.Storable n n := by
  match obj with
  | .boolean _ | .int _ => trivial
  | .string val =>
      rw [DbObject.payload, List.length_append] at hlen
      exact ⟨h.1, by omega⟩
  | .list items =>
      rw [DbObject.payload, containerBytes, List.length_append, List.length_append] at hlen
      rw [DbObject.Storable] at h ⊢
      exact ItemsStorable.of_length h (by omega)
  | .map entries =>
      rw [DbObject.payload, containerBytes, List.length_append, List.length_append] at hlen
      exact ⟨EntriesStorable.of_length h.1 (by omega), h.2⟩

theorem ItemsStorable.of_length {str key n : Nat} {items : List DbObject}
    (h : ItemsStorable str key items) (hlen : (itemsBytes items).length < n) :
    ItemsStorable n n items := by
  match items with
  | [] => trivial
  | item :: items =>
      rw [itemsBytes, List.length_append, List.length_append] at hlen
      exact ⟨DbObject.Storable.of_length h.1 (by omega),
        ItemsStorable.of_length h.2 (by omega)⟩

theorem EntriesStorable.of_length {str key n : Nat} {entries : List (ByteString × DbObject)}
    (h : EntriesStorable str key entries) (hlen : (entriesBytes entries).length < n) :
    EntriesStorable n n entries := by
  match entries with
  | [] => trivial
  | (k, val) :: entries =>
      obtain ⟨⟨hnul, -, hval⟩, hrest⟩ := h
      rw [entriesBytes, List.length_append, List.length_append] at hlen
      have := length_le_headerBytes k val.getType
      exact ⟨⟨hnul, by omega, DbObject.Storable.of_length hval (by omega)⟩,
        EntriesStorable.of_length hrest (by omega)⟩

end

mutual

/-- The recursion depth `Load` needs: a container goes one level down for its
closing zero even when it is empty. -/
def DbObject.depth : DbObject → Nat
  | .list items => itemsDepth items + 1
  | .map entries => entriesDepth entries + 1
  | .null | .boolean _ | .int _ | .long _ | .float _ | .double _ | .string _
  | .byteArray _ | .guid _ | .sha1 _ => 1

def itemsDepth : List DbObject → Nat
  | [] => 1
  | item :: items => max item.depth (itemsDepth items)

def entriesDepth : List (ByteString × DbObject) → Nat
  | [] => 1
  | (_, val) :: entries => max val.depth (entriesDepth entries)

end

theorem itemsDepth_pos : ∀ items : List DbObject, 1 ≤ itemsDepth items
  | [] => by simp [itemsDepth]
  | _ :: items => by have := itemsDepth_pos items; rw [itemsDepth]; omega

theorem entriesDepth_pos : ∀ entries : List (ByteString × DbObject),
    1 ≤ entriesDepth entries
  | [] => by simp [entriesDepth]
  | (_, _) :: entries => by have := entriesDepth_pos entries; rw [entriesDepth]; omega

mutual

theorem DbObject.depth_le (obj : DbObject) : obj.depth ≤ obj.payload.length + 1 := by
  match obj with
  | .list items =>
      have := itemsDepth_le items
      rw [DbObject.depth, DbObject.payload]
      simp only [containerBytes, List.length_append, List.length_singleton]
      omega
  | .map entries =>
      have := entriesDepth_le entries
      rw [DbObject.depth, DbObject.payload]
      simp only [containerBytes, List.length_append, List.length_singleton]
      omega
  | .null | .boolean _ | .int _ | .long _ | .float _ | .double _ | .string _
  | .byteArray _ | .guid _ | .sha1 _ => simp [DbObject.depth]

theorem itemsDepth_le (items : List DbObject) :
    itemsDepth items ≤ (itemsBytes items).length + 1 := by
  match items with
  | [] => simp [itemsDepth]
  | item :: items =>
      have h₁ := item.depth_le
      have h₂ := itemsDepth_le items
      rw [itemsDepth, itemsBytes, List.length_append, List.length_append]
      omega

theorem entriesDepth_le (entries : List (ByteString × DbObject)) :
    entriesDepth entries ≤ (entriesBytes entries).length + 1 := by
  match entries with
  | [] => simp [entriesDepth]
  | (_, val) :: entries =>
      have h₁ := val.depth_le
      have h₂ := entriesDepth_le entries
      rw [entriesDepth, entriesBytes, List.length_append, List.length_append]
      omega

end

/-! ## The seven-bit integers -/

theorem ofNat_or_continuation (n : Nat) :
    UInt8.ofNat (n ||| 0x80) = UInt8.ofNat (n % 128 + 128) := by
  apply UInt8.toNat_inj.mp
  rw [UInt8.toNat_ofNat', UInt8.toNat_ofNat']
  have h : (n ||| 128) % 2 ^ 8 = n % 2 ^ 8 ||| 128 % 2 ^ 8 := Nat.or_mod_two_pow
  rw [h]
  have hb : n % 2 ^ 8 < 256 := Nat.mod_lt _ (by decide)
  have key := (by decide +kernel :
    ∀ i : Fin 256, i.val ||| 128 % 2 ^ 8 = (i.val % 128 + 128) % 2 ^ 8)
  have hk := key ⟨n % 2 ^ 8, hb⟩
  simp only at hk
  rw [hk]
  omega

theorem write7BitEncoded_emits (n : Nat) : Emits (write7BitEncoded n) (septets n) := by
  induction n using Nat.strongRecOn with
  | ind n ih =>
      rw [write7BitEncoded]
      split
      · next h =>
          rw [septets_of_lt h]
          exact put_emits _
      · next h =>
          have hdiv : n >>> 7 = n / 128 := Nat.shiftRight_eq_div_pow n 7
          rw [septets_of_ge (by omega), hdiv, ofNat_or_continuation]
          exact (put_emits _).bind (ih (n / 128) (by omega))

/-- One round's contribution: the low seven bits of the byte, at the shift. -/
theorem toNat_round {acc : UInt32} {b : UInt8} {i : Nat} (ha : acc.toNat < 2 ^ i)
    (hi : i < 32) (hfit : b.toNat % 128 * 2 ^ i < 2 ^ 32) :
    (acc ||| (b.toUInt32 &&& 127) <<< UInt32.ofNat i).toNat
      = acc.toNat + b.toNat % 128 * 2 ^ i := by
  have hmask : (b.toUInt32 &&& 127).toNat = b.toNat % 128 := by
    rw [UInt32.toNat_and, UInt8.toNat_toUInt32]
    exact Nat.and_two_pow_sub_one_eq_mod _ 7
  have hshift : (UInt32.ofNat i).toNat % 32 = i := by
    rw [UInt32.toNat_ofNat']
    omega
  rw [UInt32.toNat_or, UInt32.toNat_shiftLeft, hmask, hshift, Nat.shiftLeft_eq,
    Nat.mod_eq_of_lt hfit, Nat.or_comm, Nat.mul_comm, ← Nat.two_pow_add_eq_or_of_lt ha]
  omega

theorem toNat_shiftRight_seven (b : UInt8) : (b >>> 7).toNat = b.toNat / 128 := by
  rw [UInt8.toNat_shiftRight]
  exact Nat.shiftRight_eq_div_pow _ 7

theorem read7BitLoop_reads {n : Nat} : ∀ (fuel i : Nat) (acc : UInt32),
    acc.toNat < 2 ^ i → (n = 0 → i = 0) → acc.toNat + n * 2 ^ i < 2 ^ 32 →
    (septets n).length ≤ fuel →
    Reads (read7BitLoop fuel acc i) (septets n) (UInt32.ofNat (acc.toNat + n * 2 ^ i)) := by
  induction n using Nat.strongRecOn with
  | ind n ih =>
      intro fuel i acc ha h0 hlt hfuel
      have hi : i < 32 := by
        rcases Nat.eq_zero_or_pos n with rfl | hn
        · have := h0 rfl; omega
        · refine (Nat.pow_lt_pow_iff_right (by decide : 1 < 2)).mp ?_
          calc 2 ^ i ≤ n * 2 ^ i := Nat.le_mul_of_pos_left _ hn
            _ < 2 ^ 32 := by omega
      obtain ⟨fuel, rfl⟩ : ∃ k, fuel = k + 1 := by
        have := List.length_pos_iff.mpr (septets_ne_nil n)
        exact ⟨fuel - 1, by omega⟩
      rcases Nat.lt_or_ge n 128 with hn | hn
      · -- The last group: no continuation bit.
        have hb : (UInt8.ofNat n).toNat = n := by rw [UInt8.toNat_ofNat']; omega
        have hm : n % 128 = n := Nat.mod_eq_of_lt hn
        have hround := toNat_round (b := UInt8.ofNat n) ha hi (by rw [hb, hm]; omega)
        rw [hb, hm] at hround
        have hstop : UInt8.ofNat n >>> 7 = 0 := by
          apply UInt8.toNat_inj.mp
          rw [toNat_shiftRight_seven, hb]
          simp; omega
        rw [septets_of_lt hn, read7BitLoop, ← hround, UInt32.ofNat_toNat, ← List.append_nil [_]]
        refine (getByte_reads _).bind ?_
        simp only [hstop, if_true]
        exact Reads.pure _
      · have hb : (UInt8.ofNat (n % 128 + 128)).toNat = n % 128 + 128 := by
          rw [UInt8.toNat_ofNat']; omega
        have hm : (n % 128 + 128) % 128 = n % 128 := by omega
        have hstep := septets_step n i
        have hround := toNat_round (b := UInt8.ofNat (n % 128 + 128)) ha hi
          (by rw [hb, hm]; omega)
        rw [hb, hm] at hround
        have hmore : ¬ UInt8.ofNat (n % 128 + 128) >>> 7 = 0 := by
          intro h
          have := congrArg UInt8.toNat h
          rw [toNat_shiftRight_seven, hb] at this
          simp at this
        have hpow : 2 ^ (i + 7) = 128 * 2 ^ i := by rw [Nat.pow_add]; omega
        rw [septets_of_ge hn] at hfuel ⊢
        rw [List.length_cons] at hfuel
        have hrec := ih (n / 128) (by omega) fuel (i + 7)
          (acc ||| ((UInt8.ofNat (n % 128 + 128)).toUInt32 &&& 127) <<< UInt32.ofNat i)
          (by
            rw [hround, hpow]
            have : n % 128 * 2 ^ i ≤ 127 * 2 ^ i := Nat.mul_le_mul_right _ (by omega)
            omega)
          (by omega) (by rw [hround]; omega) (by omega)
        rw [hround, Nat.add_assoc, hstep] at hrec
        rw [read7BitLoop, ← List.singleton_append]
        refine (getByte_reads _).bind ?_
        simp only [hmore, if_false]
        exact hrec

/-- The reader of a size: the loop bound covers what the writer wrote. -/
theorem read7Bit_reads {n : Nat} (h : n < 2 ^ 32) :
    Reads (do read7BitLoop ((← get).rest.length + 1) 0 0) (septets n) (UInt32.ofNat n) := by
  intro F s tail hF hs
  have hl := congrArg List.length hs
  rw [List.length_append] at hl
  have hr := read7BitLoop_reads (n := n) (s.rest.length + 1) 0 0
    (by simp) (by simp) (by simpa using h) (by omega)
  simp only [UInt32.toNat_zero, Nat.zero_add, Nat.pow_zero, Nat.mul_one] at hr
  exact hr F s tail hF hs

/-! ## Save writes the format -/

/-- A sub-buffer that was built is put into the buffer at hand. -/
theorem Emits.ofOk {γ : Type} {e : Except Fault γ} {a : γ} {f : γ → BufM Unit}
    {bs : List UInt8} (he : e = .ok a) (hf : Emits (f a) bs) :
    Emits (do let x ← (e : BufM γ); f x) bs := by
  subst he
  exact hf

/-- What an appending computation leaves in a fresh buffer. -/
theorem Emits.run_empty {w : BufM Unit} {bs : List UInt8} (h : Emits w bs)
    (hlen : bs.length < 2 ^ 32) : ∃ s, w.run {} = .ok ((), s) ∧ s.buf = bs := by
  obtain ⟨s, hs, -, hb⟩ := h [] {} ByteBuffer.holds_nil (by simpa using hlen)
  exact ⟨s, hs, by simpa using hb (.inl rfl)⟩

theorem flags_named : ((0x00 : UInt8) &&& 0x80 = 0) := by decide

theorem flags_unnamed : ¬ ((0x80 : UInt8) &&& 0x80 = 0) := by decide

theorem saveWith_eq {name : ByteString} {type : DbType} {payload : BufM Unit}
    {bs : List UInt8} (hname : 0 ∉ name) (hlen : name.length < 2 ^ 31)
    (hp : Emits payload bs) (hsize : (headerBytes name type ++ bs).length < 2 ^ 32) :
    saveWith name type payload = .ok (headerBytes name type ++ bs) := by
  have hbody : Emits (do
      put ((if name.isEmpty then 0x80 else 0x00) ||| type.toByte)
      if (if name.isEmpty then (0x80 : UInt8) else 0x00) &&& 0x80 = 0 then
        putNullTerminatedString name
      payload) (headerBytes name type ++ bs) := by
    unfold headerBytes
    cases he : name.isEmpty with
    | true =>
        simp only [if_true, flags_unnamed, if_false]
        exact (put_emits _).bind (Emits.pure.bind hp)
    | false =>
        simp only [Bool.false_eq_true, if_false, flags_named, if_true, UInt8.zero_or,
          List.cons_append]
        exact (put_emits _).bind ((putNullTerminatedString_emits hname hlen).bind hp)
  obtain ⟨s, hs, hb⟩ := hbody.run_empty hsize
  unfold saveWith
  simp only [hs]
  exact congrArg Except.ok hb

theorem saveContainer_emits {items : BufM Unit} {bs : List UInt8} (h : Emits items bs)
    (hlen : (containerBytes bs).length < 2 ^ 32) :
    Emits (saveContainer items) (containerBytes bs) := by
  have hb : bs.length + 1 < 2 ^ 32 := by
    simp only [containerBytes, List.length_append, List.length_singleton] at hlen
    omega
  obtain ⟨s, hs, rfl⟩ := h.run_empty (by omega)
  refine Emits.ofOk hs ?_
  have hn : (UInt64.ofNat (s.buf.length + 1)).toNat = s.buf.length + 1 := by
    rw [UInt64.toNat_ofNat']
    omega
  simp only [write7BitEncodedLong, hn]
  exact (write7BitEncoded_emits _).bind ((append_emits _).bind (put_emits 0))

mutual

theorem savePayload_emits {str key : Nat} (hkey : key ≤ 2 ^ 31) (obj : DbObject)
    (hobj : obj.Storable str key) (hlen : obj.payload.length < 2 ^ 32) :
    Emits obj.savePayload obj.payload := by
  match obj with
  | .boolean val => exact put_emits _
  | .int val => exact putInt_emits val
  | .string val =>
      rw [DbObject.payload, List.length_append] at hlen
      have hn : (UInt32.ofNat val.length).toNat = val.length := by
        rw [UInt32.toNat_ofNat']
        omega
      rw [DbObject.savePayload, DbObject.payload, write7BitEncodedInt, hn]
      exact (write7BitEncoded_emits _).bind (append_emits val)
  | .list items =>
      rw [DbObject.payload] at hlen ⊢
      rw [DbObject.savePayload]
      rw [DbObject.Storable] at hobj
      exact saveContainer_emits (saveItems_emits hkey items hobj
        (Nat.lt_of_le_of_lt (by simp [containerBytes]; omega) hlen)) hlen
  | .map entries =>
      rw [DbObject.payload] at hlen ⊢
      rw [DbObject.savePayload]
      rw [DbObject.Storable] at hobj
      exact saveContainer_emits (saveEntries_emits hkey entries hobj.1
        (Nat.lt_of_le_of_lt (by simp [containerBytes]; omega) hlen)) hlen
  | .null | .long _ | .float _ | .double _ | .byteArray _ | .guid _ | .sha1 _ =>
      rw [DbObject.Storable] at hobj
      exact hobj.elim

theorem saveItems_emits {str key : Nat} (hkey : key ≤ 2 ^ 31) (items : List DbObject)
    (hitems : ItemsStorable str key items) (hlen : (itemsBytes items).length < 2 ^ 32) :
    Emits (saveItems items) (itemsBytes items) := by
  match items with
  | [] => exact Emits.pure
  | item :: items =>
      rw [ItemsStorable] at hitems
      rw [itemsBytes, List.length_append] at hlen
      have hp := savePayload_emits hkey item hitems.1 (by
        rw [List.length_append] at hlen; omega)
      rw [saveItems, itemsBytes]
      exact Emits.ofOk (saveWith_eq (by simp) (by simp) hp (by omega))
        ((append_emits _).bind (saveItems_emits hkey items hitems.2 (by omega)))

theorem saveEntries_emits {str key : Nat} (hkey : key ≤ 2 ^ 31)
    (entries : List (ByteString × DbObject)) (hentries : EntriesStorable str key entries)
    (hlen : (entriesBytes entries).length < 2 ^ 32) :
    Emits (saveEntries entries) (entriesBytes entries) := by
  match entries with
  | [] => exact Emits.pure
  | (k, val) :: entries =>
      rw [EntriesStorable] at hentries
      obtain ⟨⟨hk, hkl, hval⟩, hrest⟩ := hentries
      rw [entriesBytes, List.length_append] at hlen
      have hp := savePayload_emits hkey val hval (by
        rw [List.length_append] at hlen; omega)
      rw [saveEntries, entriesBytes]
      exact Emits.ofOk (saveWith_eq hk (by omega) hp (by omega))
        ((append_emits _).bind (saveEntries_emits hkey entries hrest (by omega)))

end

/-- `Save` produces the format, for a tree whose bytes fit in a buffer. -/
theorem DbObject.save_eq {str key : Nat} (hkey : key ≤ 2 ^ 31) {obj : DbObject}
    {name : ByteString} (hobj : obj.Storable str key) (hname : 0 ∉ name) (hlen : name.length < 2 ^ 31)
    (hsize : (obj.bytes name).length < 2 ^ 32) : obj.save name = .ok (obj.bytes name) := by
  have hp : obj.payload.length < 2 ^ 32 := by
    rw [DbObject.bytes, List.length_append] at hsize
    omega
  exact saveWith_eq hname hlen (savePayload_emits hkey obj hobj hp) hsize

/-! ## Load reads it back -/

theorem emplace_last {V : Type} {key : ByteString} {value : V}
    {entries : List (ByteString × V)} (h : ∀ e ∈ entries, compare e.1 key = .lt) :
    emplace key value entries = entries ++ [(key, value)] := by
  induction entries with
  | nil => rfl
  | cons e entries ih =>
      obtain ⟨k, v⟩ := e
      have hk : compare key k = .gt := Std.OrientedCmp.gt_of_lt (h (k, v) (by simp))
      rw [emplace, hk]
      show (k, v) :: emplace key value entries = _
      rw [ih fun e he => h e (by simp [he])]
      rfl

/-- Emplacing ascending keys one after another appends them. -/
theorem foldl_emplace {V : Type} {entries : List (ByteString × V)} :
    ∀ {acc : List (ByteString × V)},
    (acc ++ entries).Pairwise (fun a b => compare a.1 b.1 = .lt) →
    entries.foldl (fun m e => emplace e.1 e.2 m) acc = acc ++ entries := by
  induction entries with
  | nil => intro acc _; simp
  | cons e entries ih =>
      intro acc h
      have hlast : ∀ a ∈ acc, compare a.1 e.1 = .lt := fun a ha =>
        (List.pairwise_append.mp h).2.2 a ha e (by simp)
      rw [List.foldl_cons, emplace_last hlast]
      have happ : acc ++ [(e.1, e.2)] ++ entries = acc ++ e :: entries := by simp
      rw [ih (by rw [happ]; exact h), happ]

/-- A container's loop on saved items: it runs until the nested call consumes
the closing zero. `size` counts that zero, so the loop condition holds at every
round before; `n` rounds are enough because every item has a byte. -/
theorem loadItems_reads {item : BufM (Option (ByteString × DbObject))}
    {enc : ByteString × DbObject → List UInt8} (offset size : Nat)
    (hend : Reads item [0] none) : ∀ (es : List (ByteString × DbObject)),
    (∀ e ∈ es, enc e ≠ [] ∧ Reads item (enc e) (some e)) →
    ∀ (n : Nat) (values : List (ByteString × DbObject)) {s : ByteBuffer} {tail : List UInt8},
    s.rest = es.flatMap enc ++ [0] ++ tail → (es.flatMap enc).length < n →
    offset ≤ s.rpos → s.rpos + (es.flatMap enc).length + 1 = offset + size →
    loadItems item offset size n values s
      = .ok (values ++ es, s.skip ((es.flatMap enc).length + 1)) := by
  intro es
  induction es with
  | nil =>
      intro _ n values s tail hs hn hoff hsize
      obtain ⟨n, rfl⟩ : ∃ k, n = k + 1 := ⟨n - 1, by omega⟩
      have hcond : s.rpos - offset < size := by simp at hsize; omega
      have hi := hend s.buf s tail rfl (by simpa using hs)
      show (if s.rpos - offset < size then _ else _ : BufM _) s = _
      rw [if_pos hcond]
      show (item s >>= _) = _
      rw [hi]
      rw [List.append_nil]
      rfl
  | cons e es ih =>
      intro hes n values s tail hs hn hoff hsize
      obtain ⟨hne, he⟩ := hes e (by simp)
      have hpos := List.length_pos_iff.mpr hne
      rw [List.flatMap_cons, List.length_append] at hn hsize
      rw [List.flatMap_cons, List.append_assoc, List.append_assoc] at hs
      obtain ⟨n, rfl⟩ : ∃ k, n = k + 1 := ⟨n - 1, by omega⟩
      have hcond : s.rpos - offset < size := by omega
      have hi := he s.buf s _ rfl hs
      have hrec := ih (fun e' he' => hes e' (by simp [he'])) n (values ++ [e])
        (s := s.skip (enc e).length)
        (by rw [List.append_assoc]; exact ByteBuffer.rest_skip hs) (by omega)
        (by simp only [ByteBuffer.skip_rpos]; omega)
        (by simp only [ByteBuffer.skip_rpos]; omega)
      show (if s.rpos - offset < size then _ else _ : BufM _) s = _
      rw [if_pos hcond]
      show (item s >>= _) = _
      rw [hi]
      show loadItems item offset size n (values ++ [e]) (s.skip (enc e).length) = _
      rw [hrec, ByteBuffer.skip_skip]
      simp [List.flatMap_cons, Nat.add_assoc]

/-- A container's payload: the size, then the loop. -/
theorem container_reads {β : Type} {item : BufM (Option (ByteString × DbObject))}
    (enc : ByteString × DbObject → List UInt8) (es : List (ByteString × DbObject))
    (hend : Reads item [0] none)
    (hes : ∀ e ∈ es, enc e ≠ [] ∧ Reads item (enc e) (some e))
    (hlen : (es.flatMap enc).length + 1 < 2 ^ 32)
    (f : List (ByteString × DbObject) → β) :
    Reads (do
      let size ← read7BitEncodedLong
      let offset ← getReadPos
      let values ← loadItems item offset size.toNat size.toNat []
      return f values) (containerBytes (es.flatMap enc)) (f es) := by
  refine (read7Bit_reads hlen).bind ?_
  intro F s tail _ hs
  have hn : (UInt32.ofNat ((es.flatMap enc).length + 1)).toNat
      = (es.flatMap enc).length + 1 := by
    rw [UInt32.toNat_ofNat']
    omega
  have hl := loadItems_reads s.rpos ((es.flatMap enc).length + 1) hend es hes
    ((es.flatMap enc).length + 1) [] hs (by omega) (Nat.le_refl _) (by omega)
  show (loadItems item s.rpos _ _ [] s >>= _) = _
  rw [hn, hl, List.length_append]
  rfl

theorem nestedItem_end (depth : Nat) :
    Reads (nestedItem (DbObject.loadTo (depth + 1) [])) [0] none := by
  have h : Reads (DbObject.loadTo (depth + 1) []) [0] (none, []) := by
    rw [DbObject.loadTo, ← List.append_nil [_]]
    exact (getByte_reads 0).bind (Reads.pure _)
  exact h.map fun p => p.1.map fun value => (p.2, value)

/-- The flag byte gives back the type and tells whether a name follows. -/
theorem flag_byte {str key : Nat} {obj : DbObject} (hobj : obj.Storable str key) :
    DbType.ofByte (obj.getType.toByte &&& 0x1F) = obj.getType ∧
    DbType.ofByte ((0x80 ||| obj.getType.toByte) &&& 0x1F) = obj.getType ∧
    obj.getType.toByte &&& 0x80 = 0 ∧ ¬ (0x80 ||| obj.getType.toByte) &&& 0x80 = 0 ∧
    obj.getType ≠ .invalid := by
  cases obj with
  | boolean | int | string | list | map =>
      simp only [DbObject.getType]
      decide
  | null | long | float | double | byteArray | guid | sha1 =>
      rw [DbObject.Storable] at hobj
      exact hobj.elim

theorem loadTo_reads_of_payload {str key depth : Nat} {obj : DbObject} {name : ByteString}
    {bs : List UInt8} (hobj : obj.Storable str key) (hname : 0 ∉ name)
    (h : Reads (loadPayload (nestedItem (DbObject.loadTo depth [])) obj.getType) bs (some obj)) :
    Reads (DbObject.loadTo (depth + 1) []) (headerBytes name obj.getType ++ bs)
      (some obj, name) := by
  obtain ⟨htype, htype', hnamed, hunnamed, hvalid⟩ := flag_byte hobj
  have hobj' := h.map fun o => (o, name)
  rw [DbObject.loadTo]
  unfold headerBytes
  cases he : name.isEmpty with
  | true =>
      obtain rfl : name = [] := List.isEmpty_iff.mp he
      simp only [if_true]
      refine (getByte_reads _).bind ?_
      simp only [htype', hvalid, hunnamed, if_false, pure_bind]
      exact hobj'
  | false =>
      simp only [Bool.false_eq_true, if_false]
      rw [List.cons_append, ← List.singleton_append]
      refine (getByte_reads _).bind ?_
      simp only [htype, hvalid, hnamed, if_false, if_true]
      exact (getNullTerminatedString_reads hname).bind hobj'

mutual

theorem DbObject.loadTo_reads {key : Nat} (obj : DbObject)
    (hobj : obj.Storable (2 ^ 31 - 1) key) (depth : Nat) (hd : obj.depth ≤ depth)
    (name : ByteString) (hname : 0 ∉ name) (hlen : (obj.bytes name).length < 2 ^ 32) :
    Reads (DbObject.loadTo depth []) (obj.bytes name) (some obj, name) := by
  match obj with
  | .boolean val =>
      obtain ⟨depth, rfl⟩ : ∃ k, depth = k + 1 := ⟨depth - 1, by rw [DbObject.depth] at hd; omega⟩
      refine loadTo_reads_of_payload hobj hname ?_
      have h := (getByte_reads (if val then 0x01 else 0x00)).map
        fun b => some (DbObject.boolean (b == 1))
      cases val <;> exact h
  | .int val =>
      obtain ⟨depth, rfl⟩ : ∃ k, depth = k + 1 := ⟨depth - 1, by rw [DbObject.depth] at hd; omega⟩
      exact loadTo_reads_of_payload hobj hname ((getInt_reads val).map fun v => some (DbObject.int v))
  | .string val =>
      obtain ⟨depth, rfl⟩ : ∃ k, depth = k + 1 := ⟨depth - 1, by rw [DbObject.depth] at hd; omega⟩
      have hobj' := hobj
      rw [DbObject.Storable] at hobj'
      obtain ⟨hnul, hval⟩ := hobj'
      refine loadTo_reads_of_payload hobj hname ?_
      have hn : (UInt32.ofNat val.length).toNat = val.length := by
        rw [UInt32.toNat_ofNat']
        omega
      have hc : cStr val = val := List.takeWhile_eq_self_iff.mpr (nonzero_of_nulFree hnul)
      have h := (getBytes_reads val).map fun data => some (DbObject.string (cStr data))
      rw [hc] at h
      refine (read7Bit_reads (by omega)).bind ?_
      rw [hn, if_pos (by omega)]
      exact h
  | .list items =>
      obtain ⟨depth, rfl⟩ : ∃ k, depth = k + 2 := ⟨depth - 2, by
        have := itemsDepth_pos items
        rw [DbObject.depth] at hd; omega⟩
      have hobj' := hobj
      rw [DbObject.Storable] at hobj'
      rw [DbObject.depth] at hd
      rw [DbObject.bytes, List.length_append, DbObject.payload, containerBytes,
        List.length_append, List.length_append, List.length_singleton] at hlen
      refine loadTo_reads_of_payload hobj hname ?_
      have hes := loadItems_items items hobj' (depth + 1) (by omega) (by omega)
      have h := container_reads (fun e => e.2.bytes e.1)
        (items.map fun item => (([] : ByteString), item)) (nestedItem_end depth)
        (fun e he => ⟨DbObject.bytes_ne_nil _ _, hes e he⟩)
        (by rw [← itemsBytes_eq]; omega)
        (fun values => some (DbObject.list (values.map Prod.snd)))
      rw [← itemsBytes_eq, List.map_map] at h
      have hid : items.map (Prod.snd ∘ fun item => (([] : ByteString), item)) = items :=
        List.map_id items
      rw [hid] at h
      exact h
  | .map entries =>
      obtain ⟨depth, rfl⟩ : ∃ k, depth = k + 2 := ⟨depth - 2, by
        have := entriesDepth_pos entries
        rw [DbObject.depth] at hd; omega⟩
      have hobj' := hobj
      rw [DbObject.Storable] at hobj'
      obtain ⟨hentries, hsorted⟩ := hobj'
      rw [DbObject.depth] at hd
      rw [DbObject.bytes, List.length_append, DbObject.payload, containerBytes,
        List.length_append, List.length_append, List.length_singleton] at hlen
      refine loadTo_reads_of_payload hobj hname ?_
      have hes := loadItems_entries entries hentries (depth + 1) (by omega) (by omega)
      have h := container_reads (fun e => e.2.bytes e.1) entries (nestedItem_end depth)
        (fun e he => ⟨DbObject.bytes_ne_nil _ _, hes e he⟩)
        (by rw [← entriesBytes_eq]; omega)
        (fun values => some (DbObject.map (values.foldl (fun m e => emplace e.1 e.2 m) [])))
      rw [← entriesBytes_eq, foldl_emplace (by simpa using hsorted), List.nil_append] at h
      exact h
  | .null | .long _ | .float _ | .double _ | .byteArray _ | .guid _ | .sha1 _ =>
      rw [DbObject.Storable] at hobj
      exact hobj.elim

theorem loadItems_items {key : Nat} (items : List DbObject)
    (hitems : ItemsStorable (2 ^ 31 - 1) key items) (depth : Nat)
    (hd : itemsDepth items ≤ depth) (hlen : (itemsBytes items).length < 2 ^ 32) :
    ∀ e ∈ items.map fun item => (([] : ByteString), item),
      Reads (nestedItem (DbObject.loadTo depth [])) (e.2.bytes e.1) (some e) := by
  match items with
  | [] => simp
  | item :: items =>
      rw [ItemsStorable] at hitems
      rw [itemsDepth] at hd
      rw [itemsBytes, List.length_append] at hlen
      intro e he
      rw [List.map_cons, List.mem_cons] at he
      rcases he with rfl | he
      · exact (DbObject.loadTo_reads item hitems.1 depth (by omega) [] (by simp)
          (by rw [DbObject.bytes]; omega)).map fun p => p.1.map fun value => (p.2, value)
      · exact loadItems_items items hitems.2 depth (by omega) (by omega) e he

theorem loadItems_entries {key : Nat} (entries : List (ByteString × DbObject))
    (hentries : EntriesStorable (2 ^ 31 - 1) key entries) (depth : Nat)
    (hd : entriesDepth entries ≤ depth) (hlen : (entriesBytes entries).length < 2 ^ 32) :
    ∀ e ∈ entries, Reads (nestedItem (DbObject.loadTo depth [])) (e.2.bytes e.1) (some e) := by
  match entries with
  | [] => simp
  | (k, val) :: entries =>
      rw [EntriesStorable] at hentries
      obtain ⟨⟨hk, -, hval⟩, hrest⟩ := hentries
      rw [entriesDepth] at hd
      rw [entriesBytes, List.length_append] at hlen
      intro e he
      rw [List.mem_cons] at he
      rcases he with rfl | he
      · exact (DbObject.loadTo_reads val hval depth (by omega) k hk
          (by rw [DbObject.bytes]; omega)).map fun p => p.1.map fun value => (p.2, value)
      · exact loadItems_entries entries hrest depth (by omega) (by omega) e he

end

theorem DbObject.load_reads {key : Nat} {obj : DbObject}
    (hobj : obj.Storable (2 ^ 31 - 1) key) {name : ByteString} (hname : 0 ∉ name)
    (hlen : (obj.bytes name).length < 2 ^ 32) :
    Reads (DbObject.load []) (obj.bytes name) (some obj, name) := by
  intro F s tail hF hs
  have hd : obj.depth ≤ s.rest.length + 1 := by
    have h := obj.depth_le
    rw [hs, DbObject.bytes, List.length_append, List.length_append]
    omega
  exact obj.loadTo_reads hobj _ hd name hname hlen F s tail hF hs

/-- Saving a tree and loading the bytes, whatever follows them, gives back the
tree and its name and leaves the read cursor at what follows. The saved bytes
and the rest have to fit in a buffer, a string's length and one more in a
32-bit `long`, and a key or a name in an `int` index. -/
theorem dbObject_load_save (obj : DbObject) (name : ByteString) (suffix : List UInt8)
    (hobj : obj.Storable (2 ^ 31 - 1) (2 ^ 31)) (hname : 0 ∉ name)
    (hlen : name.length < 2 ^ 31) (hsize : (obj.bytes name ++ suffix).length < 2 ^ 32) :
    ∃ bytes, obj.save name = .ok bytes ∧
      ∃ buf, (DbObject.load []).run (.ofBytes (bytes ++ suffix)) = .ok ((some obj, name), buf) ∧
        buf.rpos = bytes.length ∧ buf.rest = suffix := by
  have hbytes : (obj.bytes name).length < 2 ^ 32 := by
    rw [List.length_append] at hsize
    omega
  have hload := DbObject.load_reads hobj hname hbytes _ (.ofBytes (obj.bytes name ++ suffix))
    suffix rfl (by simp)
  refine ⟨obj.bytes name, DbObject.save_eq (Nat.le_refl _) hobj hname hlen hbytes, _, hload, ?_, ?_⟩
  · simp [ByteBuffer.ofBytes]
  · exact ByteBuffer.rest_skip (by simp)

/-- A chunk meta as the mod loader builds it, followed by other bytes. -/
theorem dbObject_load_save_chunkMeta :
    let obj : DbObject := .list [.map
      [([0x68, 0x33, 0x32], .int 7), ([0x6d, 0x65, 0x74, 0x61], .map [])]]
    ∃ bytes, obj.save [0x6d] = .ok bytes ∧
      ∃ buf, (DbObject.load []).run (.ofBytes (bytes ++ [1, 2])) = .ok ((some obj, [0x6d]), buf) ∧
        buf.rpos = bytes.length ∧ buf.rest = [1, 2] :=
  dbObject_load_save _ _ _
    (by simp [DbObject.Storable, ItemsStorable, EntriesStorable]; decide)
    (by decide) (by decide)
    (by simp [DbObject.bytes, DbObject.payload, containerBytes, itemsBytes, entriesBytes,
      headerBytes, DbObject.getType, septets, leBytes])

/-! ## Past the limits

A string of 2^31 - 1 bytes saves, but its length and the terminator do not fit
the 32-bit `long` that `Load` computes the size of its array in. A list of two
strings of about 2 GiB does not save: the second one takes the write cursor of
the items' buffer around 2^32. -/

theorem nulFree_replicate (n : Nat) : (0 : UInt8) ∉ List.replicate n 0x61 := by
  intro h
  have := List.eq_of_mem_replicate h
  exact absurd this (by decide)

theorem load_string_overflow {val : ByteString} (hlong : 2 ^ 31 ≤ val.length + 1)
    (hlen : val.length < 2 ^ 32) :
    (DbObject.load []).run (.ofBytes ((DbObject.string val).bytes [])) = .error .overflow := by
  have hn : (UInt32.ofNat val.length).toNat = val.length := by
    rw [UInt32.toNat_ofNat']
    omega
  have hrest : (ByteBuffer.ofBytes ((DbObject.string val).bytes [])).rest
      = [0x80 ||| DbType.string.toByte] ++ (septets val.length ++ val) := rfl
  have htype : DbType.ofByte ((0x80 ||| DbType.string.toByte) &&& 0x1F) = .string := by decide
  have hunnamed : ¬ (0x80 ||| DbType.string.toByte) &&& 0x80 = 0 := by decide
  show DbObject.loadTo _ [] (ByteBuffer.ofBytes ((DbObject.string val).bytes [])) = _
  rw [DbObject.loadTo, (getByte_reads _).bind_apply hrest]
  simp only [htype, hunnamed, reduceCtorEq, if_false, pure_bind, loadPayload]
  rw [bind_assoc, read7BitEncodedInt,
    (read7Bit_reads hlen).bind_apply (ByteBuffer.rest_skip hrest), hn, if_neg (by omega)]
  rfl

theorem save_list_overflow {a b : DbObject} {str : Nat} (ha : a.Storable str (2 ^ 31))
    (hb : b.Storable str (2 ^ 31)) (hla : (a.bytes []).length < 2 ^ 32)
    (hlb : (b.bytes []).length < 2 ^ 32)
    (h : 2 ^ 32 ≤ (a.bytes []).length + (b.bytes []).length) :
    (DbObject.list [a, b]).save [] = .error .outOfBounds := by
  have hsa : a.save [] = .ok (a.bytes []) :=
    DbObject.save_eq (Nat.le_refl _) ha (by simp) (by simp) hla
  have hsb : b.save [] = .ok (b.bytes []) :=
    DbObject.save_eq (Nat.le_refl _) hb (by simp) (by simp) hlb
  obtain ⟨s₁, h₁, hh₁, hb₁⟩ := append_emits (a.bytes []) [] {} ByteBuffer.holds_nil
    (by simpa using hla)
  have hbuf := hb₁ (.inl rfl)
  rw [List.nil_append] at hh₁ hbuf
  have h₂ := append_overflow hh₁ hla hlb hbuf h
  have hitems : (saveItems [a, b]).run {} = .error .outOfBounds := by
    rw [saveItems, saveItems]
    unfold DbObject.save at hsa hsb
    rw [hsa, hsb]
    show (append (a.bytes []) {} >>= fun p => append (b.bytes []) p.2 >>= _) = _
    rw [h₁]
    show (append (b.bytes []) s₁ >>= _) = _
    rw [h₂]
    rfl
  have hcontainer : ∀ s, saveContainer (saveItems [a, b]) s = .error .outOfBounds := by
    intro s
    unfold saveContainer
    rw [hitems]
    rfl
  obtain ⟨s₂, h₂, -⟩ := put_emits (0x80 ||| DbType.list.toByte) [] {} ByteBuffer.holds_nil
    (by decide)
  rw [DbObject.save, saveWith]
  show ((do put (0x80 ||| DbType.list.toByte); saveContainer (saveItems [a, b]) : BufM Unit) {}
    >>= _) = _
  have : (do put (0x80 ||| DbType.list.toByte); saveContainer (saveItems [a, b]) : BufM Unit) {}
      = .error .outOfBounds := by
    show (put (0x80 ||| DbType.list.toByte) {} >>= fun p =>
      saveContainer (saveItems [a, b]) p.2) = _
    rw [h₂]
    exact hcontainer s₂
  rw [this]
  rfl

theorem length_string_bytes {n : Nat} (h : n < 2 ^ 31) :
    n + 2 ≤ ((DbObject.string (List.replicate n 0x61)).bytes []).length ∧
      ((DbObject.string (List.replicate n 0x61)).bytes []).length ≤ n + 6 := by
  have h₁ := List.length_pos_iff.mpr (septets_ne_nil n)
  have h₂ : (septets n).length ≤ 4 + 1 := length_septets_le (by omega)
  have hlen : ((DbObject.string (List.replicate n 0x61)).bytes []).length
      = 1 + ((septets n).length + n) := by
    rw [DbObject.bytes, List.length_append, DbObject.payload, List.length_append,
      List.length_replicate]
    rfl
  omega

theorem storable_replicate {n : Nat} (h : n < 2 ^ 31) :
    (DbObject.string (List.replicate n 0x61)).Storable (2 ^ 31) (2 ^ 31) := by
  rw [DbObject.Storable, List.length_replicate]
  exact ⟨nulFree_replicate n, h⟩

theorem load_save_long_string {n : Nat} (h : n + 1 = 2 ^ 31) :
    (DbObject.string (List.replicate n 0x61)).Storable (2 ^ 31) (2 ^ 31) ∧
      ∃ bytes, (DbObject.string (List.replicate n 0x61)).save [] = .ok bytes ∧
        (DbObject.load []).run (.ofBytes bytes) = .error .overflow := by
  have hb := length_string_bytes (n := n) (by omega)
  have hs := storable_replicate (n := n) (by omega)
  refine ⟨hs, _, DbObject.save_eq (Nat.le_refl _) hs (by simp) (by simp) (by omega), load_string_overflow ?_ ?_⟩
  · rw [List.length_replicate]; omega
  · rw [List.length_replicate]; omega

theorem save_long_list {n : Nat} (h : n + 2 = 2 ^ 31) :
    (DbObject.list [.string (List.replicate n 0x61),
        .string (List.replicate n 0x61)]).Storable (2 ^ 31) (2 ^ 31) ∧
      (DbObject.list [.string (List.replicate n 0x61),
        .string (List.replicate n 0x61)]).save [] = .error .outOfBounds := by
  have hb := length_string_bytes (n := n) (by omega)
  have hs := storable_replicate (n := n) (by omega)
  refine ⟨?_, save_list_overflow hs hs (by omega) (by omega) (by omega)⟩
  rw [DbObject.Storable, ItemsStorable, ItemsStorable, ItemsStorable]
  exact ⟨hs, hs, trivial⟩

/-- Both limits are real: a NUL-free string of 2^31 - 1 bytes is saved and not
loaded, and a list of two shorter ones is not saved. -/
theorem dbObject_codec_limits :
    ((DbObject.string (List.replicate (2 ^ 31 - 1) 0x61)).Storable (2 ^ 31) (2 ^ 31) ∧
      ∃ bytes, (DbObject.string (List.replicate (2 ^ 31 - 1) 0x61)).save [] = .ok bytes ∧
        (DbObject.load []).run (.ofBytes bytes) = .error .overflow) ∧
    (DbObject.list [.string (List.replicate (2 ^ 31 - 2) 0x61),
        .string (List.replicate (2 ^ 31 - 2) 0x61)]).Storable (2 ^ 31) (2 ^ 31) ∧
      (DbObject.list [.string (List.replicate (2 ^ 31 - 2) 0x61),
        .string (List.replicate (2 ^ 31 - 2) 0x61)]).save [] = .error .outOfBounds :=
  ⟨load_save_long_string (by omega), save_long_list (by omega)⟩

end Kyber.ModLoader
