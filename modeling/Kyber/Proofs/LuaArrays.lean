import Kyber.Lib.Runs
import Kyber.Script.LuaDataContainer

/-!
# What Lua sees of an array

`FBArray.Holds` says which list of elements is in the memory of an array, each of them so many
bytes. There is a lemma for what each function of the SDK makes of it.

`view` is what a script should see: the same calls on the list. An element that is written
replaces the one that was there, zeroed ones are appended, and what is read is the element.
The elements are taken for pointers, so that this is what the code does where they are; where
not, it depends on what is read or how much of it is copied.
-/

namespace Kyber.Sdk

open Kyber.Lib

/-! ## The elements in memory -/

/-- The elements `es`, of `w` bytes each, are at the pointer. -/
structure Place.Holds (w : Nat) (p : Place) (es : List (List UInt8)) : Prop where
  header_le : 4 ≤ p.offset
  elements_le : p.offset + w * es.length ≤ p.block.length
  size_eq : leNat (cells p.block (p.offset - 4) 4) = es.length
  rows_eq : rows p.block p.offset w es.length = es

def FBArray.Holds (w : Nat) (array : FBArray) (es : List (List UInt8)) : Prop :=
  match array.data with
  | none => es = []
  | some p => p.Holds w es

theorem Place.Holds.length_lt {w : Nat} {p : Place} {es : List (List UInt8)}
    (h : p.Holds w es) : es.length < 2 ^ 32 := by
  have hle := h.elements_le
  have hheader := h.header_le
  have hlength := length_cells (show p.offset - 4 + 4 ≤ p.block.length by omega)
  have hlt := leNat_lt (cells p.block (p.offset - 4) 4)
  rw [h.size_eq, hlength] at hlt
  exact hlt

/-- The elements that were there, with zeroed ones behind them. -/
theorem Place.holds_append {w k : Nat} {block : List UInt8} {es : List (List UInt8)}
    (hlt : es.length + k < 2 ^ 32) (hle : 8 + w * (es.length + k) ≤ block.length)
    (hsize : cells block 4 4 = leBytes 4 (es.length + k))
    (hold : rows block 8 w es.length = es)
    (hzeros : cells block (8 + w * es.length) (w * k) = List.replicate (w * k) 0) :
    Place.Holds w { block, offset := 8 } (es ++ List.replicate k (List.replicate w 0)) := by
  have hlength : (es ++ List.replicate k (List.replicate w (0 : UInt8))).length =
      es.length + k := by simp
  refine { header_le := Nat.le_succ_of_le (by decide), elements_le := ?_, size_eq := ?_,
           rows_eq := ?_ }
  · rw [hlength]
    exact hle
  · rw [hlength]
    show leNat (cells block 4 4) = _
    rw [hsize]
    exact leNat_leBytes hlt
  · rw [hlength]
    show rows block 8 w _ = _
    rw [rows_add, hold, rows_eq_replicate hzeros]

namespace FBArray

variable {w : Nat} {array : FBArray} {es : List (List UInt8)}

theorem Holds.length_lt (h : array.Holds w es) : es.length < 2 ^ 32 := by
  unfold Holds at h
  cases hdata : array.data with
  | none =>
      rw [hdata] at h
      subst h
      decide
  | some p =>
      rw [hdata] at h
      exact Place.Holds.length_lt h

theorem Holds.size (h : array.Holds w es) : array.size = some (UInt32.ofNat es.length) := by
  unfold Holds at h
  unfold FBArray.size
  cases hdata : array.data with
  | none =>
      rw [hdata] at h
      subst h
      rfl
  | some p =>
      rw [hdata] at h
      have hheader := h.header_le
      have hle := h.elements_le
      show (readAt p.block (p.offset - 4) 4).map _ = _
      rw [readAt_of_le (p := p.offset - 4) (by omega) (by omega), Option.map_some, h.size_eq]

/-- An array with elements has memory. -/
theorem Holds.exists_place (h : array.Holds w es) (hpos : 0 < es.length) :
    ∃ p, array.data = some p ∧ p.Holds w es := by
  unfold Holds at h
  cases hdata : array.data with
  | none =>
      rw [hdata] at h
      subst h
      exact absurd hpos (Nat.lt_irrefl 0)
  | some p =>
      rw [hdata] at h
      exact ⟨p, rfl, h⟩

theorem Holds.length_of_mem (h : array.Holds w es) {e : List UInt8} (he : e ∈ es) :
    e.length = w := by
  obtain ⟨p, hdata, hp⟩ := h.exists_place (List.length_pos_of_mem he)
  have hle := hp.elements_le
  rw [← hp.rows_eq] at he
  obtain ⟨i, hi, rfl⟩ := List.mem_map.mp he
  have hrow := row_le (w := w) (List.mem_range.mp hi)
  exact length_cells (by omega)

theorem Holds.toNat_size (h : array.Holds w es) : (UInt32.ofNat es.length).toNat = es.length :=
  UInt32.toNat_ofNat_of_lt' h.length_lt

theorem Holds.element (h : array.Holds 8 es) {index : UInt32} (hi : index.toNat < es.length) :
    array.element index = some (UInt64.ofNat (leNat es[index.toNat])) := by
  obtain ⟨p, hdata, hp⟩ := h.exists_place (by omega)
  have hle := hp.elements_le
  have hrow := row_le (w := 8) hi
  have helement : cells p.block (p.offset + 8 * index.toNat) 8 = es[index.toNat] := by
    rw [← getElem_rows (by rwa [length_rows])]
    exact List.getElem_of_eq hp.rows_eq _
  rw [FBArray.element, FBArray.read, hdata]
  show (readAt p.block (p.offset + (8 * index.toNat : Nat)) 8).map _ = _
  rw [readAt_of_le (p := p.offset + 8 * index.toNat) (by omega) (by omega), Option.map_some,
    helement]

theorem Holds.write (h : array.Holds w es) {i : Nat} (hi : i < es.length) {bytes : List UInt8}
    (hw : bytes.length = w) :
    ∃ array', array.write (w * i : Nat) bytes = some array' ∧
      array'.Holds w (es.set i bytes) := by
  obtain ⟨p, hdata, hp⟩ := h.exists_place (by omega)
  have hheader := hp.header_le
  have hle := hp.elements_le
  have hrow := row_le (w := w) hi
  have hfit : p.offset + w * i + bytes.length ≤ p.block.length := by omega
  refine ⟨⟨some { p with block := overwrite p.block (p.offset + w * i) bytes }⟩, ?_, ?_⟩
  · rw [FBArray.write, hdata]
    show (writeAt p.block (p.offset + (w * i : Nat)) bytes).map _ = _
    rw [writeAt_of_le (p := p.offset + w * i) (by omega) hfit, Option.map_some]
  · refine { header_le := hheader, elements_le := ?_, size_eq := ?_, rows_eq := ?_ }
    · rw [List.length_set, length_overwrite hfit]
      exact hle
    · show leNat (cells (overwrite p.block (p.offset + w * i) bytes) (p.offset - 4) 4) = _
      rw [List.length_set, cells_overwrite_of_disjoint hfit (by omega)]
      exact hp.size_eq
    · rw [List.length_set]
      show rows (overwrite p.block (p.offset + w * i) bytes) p.offset w es.length = _
      rw [rows_overwrite_row hw hi hle, hp.rows_eq]

/-- What `memcpy` reads of the old elements. -/
theorem Holds.read (h : array.Holds w es) (hold : w * es.length = 8 * es.length) :
    ∃ old, array.read 0 (8 * es.length) = some old ∧ old.length = 8 * es.length ∧
      rows old 0 w es.length = es := by
  unfold Holds at h
  cases hdata : array.data with
  | none =>
      rw [hdata] at h
      subst h
      refine ⟨[], ?_, rfl, rfl⟩
      rw [FBArray.read, hdata]
      rfl
  | some p =>
      rw [hdata] at h
      have hle := h.elements_le
      refine ⟨cells p.block p.offset (8 * es.length), ?_, length_cells (by omega), ?_⟩
      · rw [FBArray.read, hdata]
        show readAt p.block (p.offset + 0) _ = _
        exact readAt_of_le (by omega) (by omega)
      · rw [← hold, ← h.rows_eq, length_rows]
        refine rows_congr ?_
        rw [cells_cells _ _ (by omega), Nat.add_zero]

theorem Holds.extend (h : array.Holds w es) {amount : UInt32} (memory : Nat → UInt8)
    (hsize : es.length + amount.toNat < 2 ^ 32) (hold : w * es.length = 8 * es.length)
    (hnew : w * amount.toNat ≤ 8 * amount.toNat) :
    ∃ array', array.extend memory amount = some array' ∧
      array'.Holds w (es ++ List.replicate amount.toNat (List.replicate w 0)) := by
  obtain ⟨old, hread, hlength, hrows⟩ := h.read hold
  have hadd : (UInt32.ofNat es.length + amount).toNat = es.length + amount.toNat := by
    rw [UInt32.toNat_add, h.toNat_size, Nat.mod_eq_of_lt hsize]
  let zeros : List UInt8 := List.replicate (8 * amount.toNat) 0
  have hzeros : zeros.length = 8 * amount.toNat := List.length_replicate
  let dest := (List.range (8 + 8 * (es.length + amount.toNat))).map memory
  have hdest : dest.length = 8 + 8 * (es.length + amount.toNat) := by simp [dest]
  -- the old elements, the zeroed ones and the size, one after the other
  let dest₁ := overwrite dest 8 old
  have hdest₁ : dest₁.length = dest.length := length_overwrite (by omega)
  let dest₂ := overwrite dest₁ (8 + 8 * es.length) zeros
  have hdest₂ : dest₂.length = dest.length := (length_overwrite (by omega)).trans hdest₁
  let bytes := leBytes 4 (es.length + amount.toNat)
  have hbytes : bytes.length = 4 := length_leBytes 4 _
  let dest₃ := overwrite dest₂ 4 bytes
  have hdest₃ : dest₃.length = dest.length := (length_overwrite (by omega)).trans hdest₂
  refine ⟨⟨some { block := dest₃, offset := 8 }⟩, ?_, ?_⟩
  · have hwrite₁ : writeAt dest 8 old = some dest₁ := writeAt_of_le rfl (by omega)
    have hwrite₂ : writeAt dest₁ (8 + 8 * es.length : Nat) zeros = some dest₂ :=
      writeAt_of_le rfl (by omega)
    have hwrite₃ : writeAt dest₂ 4 bytes = some dest₃ := writeAt_of_le rfl (by omega)
    simp only [FBArray.extend, h.size, Option.bind_eq_bind, Option.bind_some, hadd,
      h.toNat_size, hread]
    show (writeAt dest 8 old).bind _ = _
    rw [hwrite₁, Option.bind_some, hwrite₂, Option.bind_some, hwrite₃, Option.bind_some]
  · have hold₃ : cells dest₃ 8 (8 * es.length) = old := by
      calc cells dest₃ 8 (8 * es.length)
        _ = cells dest₂ 8 (8 * es.length) :=
            cells_overwrite_of_disjoint (by omega) (by omega)
        _ = cells dest₁ 8 (8 * es.length) :=
            cells_overwrite_of_disjoint (by omega) (by omega)
        _ = old := by
            rw [← hlength]
            exact cells_overwrite (by omega)
    have hzeros₃ : cells dest₃ (8 + 8 * es.length) (8 * amount.toNat) = zeros := by
      calc cells dest₃ (8 + 8 * es.length) (8 * amount.toNat)
        _ = cells dest₂ (8 + 8 * es.length) (8 * amount.toNat) :=
            cells_overwrite_of_disjoint (by omega) (by omega)
        _ = zeros := by
            rw [← hzeros]
            exact cells_overwrite (by omega)
    have hbytes₃ : cells dest₃ 4 4 = bytes := by
      rw [← hbytes]
      exact cells_overwrite (by omega)
    refine Place.holds_append hsize ?_ hbytes₃ ?_ ?_
    · rw [Nat.mul_add]
      omega
    · calc rows dest₃ 8 w es.length
        _ = rows old 0 w es.length := by
            refine rows_congr ?_
            rw [hold, hold₃, cells, List.drop_zero, ← hlength, List.take_length]
        _ = es := hrows
    · rw [hold]
      calc cells dest₃ (8 + 8 * es.length) (w * amount.toNat)
        _ = cells (cells dest₃ (8 + 8 * es.length) (8 * amount.toNat)) 0 (w * amount.toNat) := by
            rw [cells_cells _ _ (by omega), Nat.add_zero]
        _ = List.replicate (w * amount.toNat) 0 := by
            rw [hzeros₃, cells, List.drop_zero, List.take_replicate, Nat.min_eq_left hnew]

end FBArray

end Kyber.Sdk

namespace Kyber.Script.Containers

open Kyber.Lib Kyber.Sdk

/-! ## The view -/

/-- How many bytes an element of the type takes. -/
def TypeInfo.elementSize (type : TypeInfo) : Nat :=
  match type.basicType with
  | .classType | .array => 8
  | .valueType | .other => type.totalSize.toNat

/-- The value for the element `e` with the index `i`: the container that it points to, or what
refers to its place in the array. -/
def shown (type : TypeInfo) (i : Nat) (e : List UInt8) : LuaValue :=
  match type.basicType with
  | .classType => if leNat e = 0 then .nil else .dataContainer (UInt64.ofNat (leNat e))
  | .valueType => .valueType type.address (.fromData (type.totalSize.toNat * i : Nat))
  | .array => .fbArray type.elementType (.fromData (8 * i : Nat))
  | .other => .nil

/-- The bytes that an element gets, or none where the value is refused. -/
def stored (type : TypeInfo) (arg : LuaArg) : Except LuaError (Option (List UInt8)) :=
  match type.basicType with
  | .classType => (getDataContainer arg).map fun container => some (leBytes 8 container.toNat)
  | .valueType =>
      if type.isBlittable then
        (getValueType arg).map fun bind =>
          if bind.1 = type.address then
            some ((List.range type.totalSize.toNat).map bind.2)
          else
            none
      else
        .ok none
  | _ => .ok none

def viewIndex (type : TypeInfo) (es : List (List UInt8)) : Key → Answer
  | .string str =>
      if str = "insert" then .values [.function .insert]
      else if str = "extend" then .values [.function .extend]
      else .error (.raised "Invalid index into FBArray")
  | .integer key =>
      if 1 ≤ key.toInt then
        let i := (key.toInt - 1).toNat
        .values ((es[i]?).map (shown type i)).toList
      else
        .values []

def viewNewIndex (type : TypeInfo) (es : List (List UInt8)) (key : Int64) (arg : LuaArg) :
    List (List UInt8) × Answer :=
  if 1 ≤ key.toInt ∧ key.toInt ≤ es.length then
    match stored type arg with
    | .error error => (es, .error error)
    | .ok none => (es, .values [])
    | .ok (some bytes) => (es.set (key.toInt - 1).toNat bytes, .values [])
  else
    (es, .error (.argument 2 "Index out of bounds"))

def viewNext (type : TypeInfo) (es : List (List UInt8)) (control : Int64) : Answer :=
  if 0 ≤ control.toInt then
    let i := control.toInt.toNat
    .values <| match es[i]? with
      | some e => [.integer (control + 1), shown type i e]
      | none => []
  else
    .values []

/-- What a call makes of the elements, and what it should answer. -/
def view (type : TypeInfo) (es : List (List UInt8)) : Call → List (List UInt8) × Answer
  | .index key => (es, viewIndex type es key)
  | .newIndex key arg => viewNewIndex type es key arg
  | .extend amount _ =>
      (es ++ List.replicate amount.toInt.toNat (List.replicate type.elementSize 0),
        .values [.integer amount])
  | .next control => (es, viewNext type es control)
  | .pairs => (es, .steps (es.zipIdx.map fun e =>
      [.integer (Int64.ofNat (e.2 + 1)), shown type e.2 e.1]))

/-! ## Where the code does this -/

/-- The index that the code takes a key for is in the array if the key is. -/
def Fits (n : Nat) (key : Int64) : Prop :=
  (0 ≤ (key - 1).toInt32.toInt ∧ (key - 1).toInt32.toInt < n) ↔ (1 ≤ key.toInt ∧ key.toInt ≤ n)

instance (n : Nat) (key : Int64) : Decidable (Fits n key) := inferInstanceAs (Decidable (_ ↔ _))

/-- For an array of `n` elements: what is read of it are pointers to containers; an element of
a value type that is written begins before 2 ^ 31 bytes; what is extended takes as much as
pointers do; and a number is not changed where it is narrowed. -/
def Meets (type : TypeInfo) (n : Nat) : Call → Prop
  | .index (.string _) => True
  | .index (.integer key) =>
      Fits n key ∧ (1 ≤ key.toInt ∧ key.toInt ≤ n → type.basicType = .classType)
  | .newIndex key _ =>
      Fits n key ∧ (1 ≤ key.toInt ∧ key.toInt ≤ n → type.basicType = .valueType →
        type.isBlittable = true → type.totalSize.toNat * (key.toInt - 1) < 2 ^ 31)
  | .extend amount _ =>
      0 ≤ amount.toInt ∧ n + amount.toInt < 2 ^ 32 ∧
        type.elementSize * n = 8 * n ∧
        type.elementSize * amount.toInt ≤ 8 * amount.toInt
  | .next control =>
      (control.toInt % 2 ^ 32 < n ↔ 0 ≤ control.toInt ∧ control.toInt < n) ∧
        (0 ≤ control.toInt ∧ control.toInt < n →
          type.basicType = .classType ∧ control.toInt + 1 < 2 ^ 31)
  | .pairs => n = 0 ∨ type.basicType = .classType ∧ n < 2 ^ 31

instance (n : Nat) (key : Int64) : Decidable (Fits n key) := inferInstanceAs (Decidable (_ ↔ _))

instance (type : TypeInfo) (n : Nat) : (c : Call) → Decidable (Meets type n c)
  | .index (.string _) => inferInstanceAs (Decidable True)
  | .index (.integer _) => inferInstanceAs (Decidable (_ ∧ (_ → _)))
  | .newIndex _ _ => inferInstanceAs (Decidable (_ ∧ (_ → _ → _ → _)))
  | .extend _ _ => inferInstanceAs (Decidable (_ ∧ _ ∧ _ ∧ _))
  | .next _ => inferInstanceAs (Decidable ((_ ↔ _) ∧ (_ → _)))
  | .pairs => inferInstanceAs (Decidable (_ ∨ _))

/-! ## Numbers -/

theorem low_index (key : Int64) :
    (key - 1).toInt32.toInt % 2 ^ 32 = (key.toInt - 1) % 2 ^ 32 := by
  have hnarrow := @Int.bmod_emod (key - 1).toInt (2 ^ 32)
  have hsub := @Int.bmod_emod (key.toInt - 1) (2 ^ 64)
  rw [Int64.toInt_toInt32]
  have hkey : (key - 1).toInt = (key.toInt - 1).bmod (2 ^ 64) := Int64.toInt_sub key 1
  rw [hkey] at hnarrow ⊢
  omega

theorem outOfRange_iff {index : Int32} {n : Nat} (hn : n < 2 ^ 32) :
    (index < 0 ∨ UInt32.ofNat n ≤ index.toUInt32) ↔ ¬ (0 ≤ index.toInt ∧ index.toInt < n) := by
  have hneg : index < 0 ↔ index.toInt < 0 := Int32.lt_iff_toInt_lt
  have hsize : UInt32.ofNat n ≤ index.toUInt32 ↔ n ≤ index.toUInt32.toNat := by
    rw [UInt32.le_iff_toNat_le, UInt32.toNat_ofNat_of_lt' hn]
  rcases Int.lt_or_le index.toInt 0 with h | h
  · exact iff_of_true (Or.inl (hneg.mpr h)) (by omega)
  · have hnat : index.toUInt32.toNat = index.toInt.toNat :=
      Int32.toNat_toUInt32_of_le (Int32.le_iff_toInt_le.mpr h)
    rw [hneg, hsize, hnat]
    omega

theorem Fits.toInt_index {n : Nat} {key : Int64} (h : Fits n key) (hn : n < 2 ^ 32)
    (hkey : 1 ≤ key.toInt ∧ key.toInt ≤ n) : (key - 1).toInt32.toInt = key.toInt - 1 := by
  have hlow := low_index key
  have hrange := h.mpr hkey
  omega

theorem Fits.toNat_index {n : Nat} {key : Int64} (h : Fits n key) (hn : n < 2 ^ 32)
    (hkey : 1 ≤ key.toInt ∧ key.toInt ≤ n) :
    (key - 1).toInt32.toUInt32.toNat = (key.toInt - 1).toNat := by
  have hindex := h.toInt_index hn hkey
  have hnonneg : (0 : Int32) ≤ (key - 1).toInt32 := by
    rw [Int32.le_iff_toInt_le, hindex]
    show (0 : Int) ≤ _
    omega
  rw [Int32.toNat_toUInt32_of_le hnonneg, ← hindex]
  rfl

theorem low_control (control : Int64) :
    (control.toInt32.toUInt32.toNat : Int) = control.toInt % 2 ^ 32 := by
  have hword : control.toInt32.toInt = (control.toInt32.toUInt32.toNat : Int).bmod (2 ^ 32) := by
    rw [← Int32.toInt_toBitVec, BitVec.toInt_eq_toNat_bmod]
    rfl
  have hlt := control.toInt32.toUInt32.toNat_lt
  have hmod := @Int.bmod_emod control.toInt32.toUInt32.toNat (2 ^ 32)
  have hnarrow := @Int.bmod_emod control.toInt (2 ^ 32)
  rw [← hword] at hmod
  rw [← Int64.toInt_toInt32] at hnarrow
  omega

/-- The index that is pushed for the next step. -/
theorem succ_control {control : Int64} (hcontrol : 0 ≤ control.toInt)
    (hlast : control.toInt + 1 < 2 ^ 31) : (control.toInt32 + 1).toInt64 = control + 1 := by
  have hindex : control.toInt32.toInt = control.toInt := by
    rw [Int64.toInt_toInt32]
    exact Int.bmod_eq_of_le (by omega) (by omega)
  have hone : (1 : Int32).toInt = 1 ∧ (1 : Int64).toInt = 1 := ⟨rfl, rfl⟩
  rw [← Int64.toInt_inj, Int32.toInt_toInt64, Int32.toInt_add, Int64.toInt_add, hindex, hone.1,
    hone.2, Int.bmod_eq_of_le (by omega) (by omega), Int.bmod_eq_of_le (by omega) (by omega)]

/-- The test that both metamethods make of a key. -/
theorem Fits.outOfRange_iff {n : Nat} {key : Int64} (h : Fits n key) (hn : n < 2 ^ 32) :
    ((key - 1).toInt32 < 0 ∨ UInt32.ofNat n ≤ (key - 1).toInt32.toUInt32) ↔
      ¬ (1 ≤ key.toInt ∧ key.toInt ≤ n) := by
  rw [Containers.outOfRange_iff hn]
  exact not_congr h

/-! ## What is read -/

section

variable {type : TypeInfo} {array : FBArray} {es : List (List UInt8)}

theorem elementSize_of_class (h : type.basicType = .classType) : type.elementSize = 8 := by
  rw [TypeInfo.elementSize, h]

theorem push_eq (h : array.Holds type.elementSize es) (hclass : type.basicType = .classType)
    {index : Int32} {i : Nat} (hindex : index.toUInt32.toNat = i) (hi : i < es.length)
    (stack : List LuaValue) :
    pushFBArrayValue type array index stack = some (shown type i es[i] :: stack) := by
  subst hindex
  rw [elementSize_of_class hclass] at h
  have hlength := h.length_of_mem (List.getElem_mem hi)
  have hlt := leNat_lt es[index.toUInt32.toNat]
  rw [hlength] at hlt
  have hzero : UInt64.ofNat (leNat es[index.toUInt32.toNat]) = 0 ↔
      leNat es[index.toUInt32.toNat] = 0 := by
    rw [← UInt64.toNat_inj, UInt64.toNat_ofNat_of_lt' hlt]
    rfl
  simp only [pushFBArrayValue, hclass, h.element hi, shown, Option.bind_eq_bind,
    Option.bind_some, hzero]
  split <;> rfl

theorem index_eq (h : array.Holds type.elementSize es) {key : Int64} (hfits : Fits es.length key)
    (hclass : 1 ≤ key.toInt ∧ key.toInt ≤ es.length → type.basicType = .classType) :
    (fbArrayIndex type array (.integer key)).map Answer.ofExcept =
      some (viewIndex type es (.integer key)) := by
  have htest := hfits.outOfRange_iff h.length_lt
  simp only [fbArrayIndex, viewIndex, h.size, Option.bind_eq_bind, Option.bind_some]
  by_cases hkey : 1 ≤ key.toInt ∧ key.toInt ≤ es.length
  · have hi : (key.toInt - 1).toNat < es.length := by omega
    rw [if_neg (by rw [htest]; exact not_not_intro hkey), if_pos hkey.1,
      push_eq h (hclass hkey) (hfits.toNat_index h.length_lt hkey) hi,
      List.getElem?_eq_getElem hi]
    rfl
  · rw [if_pos (htest.mpr hkey)]
    split
    · rw [List.getElem?_eq_none (by omega)]
      rfl
    · rfl

theorem push_ne (hkind : type.basicType = .valueType ∨ type.basicType = .array) (index : Int32)
    (stack rest : List LuaValue) (i : Nat) (e : List UInt8) :
    pushFBArrayValue type array index stack ≠ some (shown type i e :: rest) := by
  have hpush : pushFBArrayValue type array index stack = pushArray type array index stack := by
    rcases hkind with hkind | hkind
    · rw [pushFBArrayValue, hkind]
      rfl
    · rw [pushFBArrayValue, hkind]
  rw [hpush, pushArray]
  cases array.element index.toUInt32 with
  | none => simp
  | some target =>
      by_cases hzero : target = 0 <;> rcases hkind with hkind | hkind <;>
        simp [hkind, hzero, shown, setMetatable]

/-- An element that is no pointer to a container is not what its index returns. -/
theorem index_ne (h : array.Holds type.elementSize es) {key : Int64} (hfits : Fits es.length key)
    (hkey : 1 ≤ key.toInt ∧ key.toInt ≤ es.length)
    (hkind : type.basicType = .valueType ∨ type.basicType = .array) :
    (fbArrayIndex type array (.integer key)).map Answer.ofExcept ≠
      some (viewIndex type es (.integer key)) := by
  have htest := hfits.outOfRange_iff h.length_lt
  have hi : (key.toInt - 1).toNat < es.length := by omega
  intro hsame
  obtain ⟨result, hresult, hanswer⟩ := Option.map_eq_some_iff.mp hsame
  simp only [fbArrayIndex, h.size, Option.bind_eq_bind, Option.bind_some] at hresult
  rw [if_neg (by rw [htest]; exact not_not_intro hkey)] at hresult
  obtain ⟨stack, hstack, hok⟩ := Option.bind_eq_some_iff.mp hresult
  cases hok
  simp only [viewIndex, if_pos hkey.1, List.getElem?_eq_getElem hi, Answer.ofExcept,
    Answer.values.injEq] at hanswer
  cases stack with
  | nil => simp at hanswer
  | cons value rest =>
      obtain rfl := (List.cons.inj hanswer).1
      exact push_ne hkind _ _ _ _ _ hstack

theorem iterator_of_lt (h : array.Holds type.elementSize es)
    (hclass : type.basicType = .classType) {control : Int64} {i : Nat} (hi : i < es.length)
    (hcontrol : control.toInt = i) (hlast : i + 1 < 2 ^ 31) :
    fbArrayIterator type array control =
      some [.integer (control + 1), shown type i es[i]] := by
  have hlow := low_control control
  have hindex : control.toInt32.toUInt32.toNat = i := by omega
  have htest : ¬ UInt32.ofNat es.length ≤ control.toInt32.toUInt32 := by
    rw [UInt32.le_iff_toNat_le, h.toNat_size, hindex]
    omega
  simp only [fbArrayIterator, h.size, Option.bind_eq_bind, Option.bind_some]
  rw [if_neg htest, push_eq h hclass hindex hi, succ_control (by omega) (by omega)]
  rfl

theorem iterator_of_ge (h : array.Holds type.elementSize es) {control : Int64}
    (hcontrol : ¬ control.toInt % 2 ^ 32 < es.length) :
    fbArrayIterator type array control = some [] := by
  have hlow := low_control control
  have htest : UInt32.ofNat es.length ≤ control.toInt32.toUInt32 := by
    rw [UInt32.le_iff_toNat_le, h.toNat_size]
    omega
  simp only [fbArrayIterator, h.size, Option.bind_eq_bind, Option.bind_some]
  rw [if_pos htest]

theorem next_eq (h : array.Holds type.elementSize es) {control : Int64}
    (hfits : control.toInt % 2 ^ 32 < es.length ↔
      0 ≤ control.toInt ∧ control.toInt < es.length)
    (hclass : 0 ≤ control.toInt ∧ control.toInt < es.length →
      type.basicType = .classType ∧ control.toInt + 1 < 2 ^ 31) :
    (fbArrayIterator type array control).map Answer.values =
      some (viewNext type es control) := by
  rw [viewNext]
  by_cases hin : 0 ≤ control.toInt ∧ control.toInt < es.length
  · obtain ⟨hclass, hlast⟩ := hclass hin
    have hi : control.toInt.toNat < es.length := by omega
    rw [iterator_of_lt h hclass hi (by omega) (by omega), if_pos hin.1]
    simp only [List.getElem?_eq_getElem hi, Option.map_some]
  · rw [iterator_of_ge h (by rwa [hfits])]
    split
    · simp only [List.getElem?_eq_none (show es.length ≤ control.toInt.toNat by omega),
        Option.map_some]
    · rfl

/-- The loop from an index on, by induction on the elements that are left. -/
theorem forPairs_eq (hclass : type.basicType = .classType) (hsize : es.length < 2 ^ 31) :
    ∀ (after before : List (List UInt8)) (fuel : Nat), es = before ++ after →
      array.Holds type.elementSize es → after.length < fuel →
      forPairs type array fuel (Int64.ofNat before.length) =
        some ((after.zipIdx before.length).map fun e =>
          [.integer (Int64.ofNat (e.2 + 1)), shown type e.2 e.1]) := by
  intro after
  induction after with
  | nil =>
      intro before fuel hes h hfuel
      obtain ⟨fuel, rfl⟩ : ∃ m, fuel = m + 1 := ⟨fuel - 1, by omega⟩
      have hlength : es.length = before.length := by rw [hes, List.append_nil]
      have hcontrol : (Int64.ofNat before.length).toInt = before.length :=
        Int64.toInt_ofNat_of_lt (by omega)
      rw [forPairs, iterator_of_ge h (by omega)]
      rfl
  | cons e after ih =>
      intro before fuel hes h hfuel
      obtain ⟨fuel, rfl⟩ : ∃ m, fuel = m + 1 := ⟨fuel - 1, by omega⟩
      have hlength : es.length = before.length + (after.length + 1) := by
        rw [hes, List.length_append, List.length_cons]
      have hcontrol : (Int64.ofNat before.length).toInt = before.length :=
        Int64.toInt_ofNat_of_lt (by omega)
      have hi : before.length < es.length := by omega
      have he : es[before.length] = e := by
        simp [hes]
      have hnext : Int64.ofNat before.length + 1 = Int64.ofNat (before.length + 1) :=
        (Int64.ofNat_add _ _).symm
      have hrest := ih (before ++ [e]) fuel (by rw [hes]; simp) h (by simpa using hfuel)
      rw [List.length_append, List.length_singleton] at hrest
      rw [forPairs, iterator_of_lt h hclass hi hcontrol (by omega), he, hnext]
      simp only [Option.bind_eq_bind, Option.bind_some, hrest, List.zipIdx_cons, List.map_cons]

/-! ## What is written -/

theorem valuePlace_eq {index : Int32} {i : Nat} (hindex : index.toInt = i)
    (hproduct : type.totalSize.toNat * (i : Int) < 2 ^ 31) :
    valuePlace type index = (type.totalSize.toNat * i : Nat) := by
  have hsize := type.totalSize.toNat_lt
  have htotal : (Int32.ofNat type.totalSize.toNat).toInt = type.totalSize.toNat :=
    Int32.toInt_ofNat_of_lt (by omega)
  have hnonneg : (0 : Int) ≤ type.totalSize.toNat * i := by
    rw [← Int.natCast_mul]
    exact Int.natCast_nonneg _
  rw [valuePlace, Int32.toInt_mul, htotal, hindex, Int.natCast_mul]
  exact Int.bmod_eq_of_le (by omega) (by omega)

/-- What an element of a class gets. -/
theorem setReference_stored {s : State} (h : s.array.Holds type.elementSize es)
    (hclass : type.basicType = .classType) {index : Int32} {i : Nat}
    (hindex : index.toUInt32.toNat = i) (hi : i < es.length) (arg : LuaArg) :
    ∃ current, s.array.element index.toUInt32 = some current ∧
      ((∃ e, (setReference s.refCounts current arg).2 = .error e ∧ stored type arg = .error e) ∨
        ∃ container bytes array', (setReference s.refCounts current arg).2 = .ok container ∧
          stored type arg = .ok (some bytes) ∧
          s.array.setElement index.toUInt32 container = some array' ∧
          array'.Holds type.elementSize (es.set i bytes)) := by
  rw [elementSize_of_class hclass] at h ⊢
  refine ⟨_, h.element (hindex ▸ hi), ?_⟩
  simp only [setReference, stored, hclass]
  cases getDataContainer arg with
  | error e => exact Or.inl ⟨e, rfl, rfl⟩
  | ok container =>
      obtain ⟨array', hwrite, h'⟩ := h.write hi (length_leBytes 8 container.toNat)
      refine Or.inr ⟨container, _, array', rfl, rfl, ?_, h'⟩
      rw [FBArray.setElement, hindex, hwrite]

/-- What an element of a value type gets. -/
theorem write_stored (h : array.Holds type.elementSize es) (hvalue : type.basicType = .valueType)
    {index : Int32} {i : Nat} (hindex : index.toInt = i) (hi : i < es.length)
    (hproduct : type.totalSize.toNat * (i : Int) < 2 ^ 31) (value : Nat → UInt8) :
    ∃ array', array.write (valuePlace type index)
        ((List.range type.totalSize.toNat).map value) = some array' ∧
      array'.Holds type.elementSize
        (es.set i ((List.range type.totalSize.toNat).map value)) := by
  have hw : type.elementSize = type.totalSize.toNat := by
    rw [TypeInfo.elementSize, hvalue]
  rw [hw] at h ⊢
  rw [valuePlace_eq hindex hproduct]
  exact h.write hi (by rw [List.length_map, List.length_range])

theorem newIndex_eq {s : State} (h : s.array.Holds type.elementSize es) {key : Int64}
    (arg : LuaArg) (hfits : Fits es.length key)
    (hproduct : 1 ≤ key.toInt ∧ key.toInt ≤ es.length → type.basicType = .valueType →
      type.isBlittable = true → type.totalSize.toNat * (key.toInt - 1) < 2 ^ 31) :
    ∃ s' result, fbArrayNewIndex type s key arg = some (s', result) ∧
      Answer.ofExcept (result.map fun _ => []) = (viewNewIndex type es key arg).2 ∧
      s'.array.Holds type.elementSize (viewNewIndex type es key arg).1 := by
  have htest := hfits.outOfRange_iff h.length_lt
  simp only [fbArrayNewIndex, viewNewIndex, h.size, Option.bind_eq_bind, Option.bind_some]
  by_cases hkey : 1 ≤ key.toInt ∧ key.toInt ≤ es.length
  · have hi : (key.toInt - 1).toNat < es.length := by omega
    rw [if_neg (by rw [htest]; exact not_not_intro hkey), if_pos hkey]
    cases hkind : type.basicType with
    | classType =>
        obtain ⟨current, hcurrent, ⟨e, hresult, hstored⟩ |
            ⟨container, bytes, array', hresult, hstored, hset, h'⟩⟩ :=
          setReference_stored h hkind (hfits.toNat_index h.length_lt hkey) hi arg
        · simp only [hcurrent, Option.bind_some, hresult, hstored]
          exact ⟨_, _, rfl, rfl, h⟩
        · simp only [hcurrent, Option.bind_some, hresult, hstored, hset]
          exact ⟨_, _, rfl, rfl, h'⟩
    | valueType =>
        by_cases hblit : type.isBlittable = true
        · simp only [stored, hkind, if_pos hblit]
          cases getValueType arg with
          | error e => exact ⟨_, _, rfl, rfl, h⟩
          | ok bind =>
              by_cases htype : bind.1 = type.address
              · have hlow := hfits.toInt_index h.length_lt hkey
                have hplace := hproduct hkey hkind hblit
                obtain ⟨array', hwrite, h'⟩ := write_stored h hkind
                  (show (key - 1).toInt32.toInt = (key.toInt - 1).toNat by omega) hi
                  (by rwa [Int.toNat_of_nonneg (by omega)]) bind.2
                simp only [if_neg (not_not_intro htype), hwrite, Option.bind_some, Except.map,
                  if_pos htype]
                exact ⟨_, _, rfl, rfl, h'⟩
              · simp only [if_pos htype, Except.map, if_neg htype]
                exact ⟨_, _, rfl, rfl, h⟩
        · simp only [stored, hkind, if_neg hblit]
          exact ⟨_, _, rfl, rfl, h⟩
    | array =>
        simp only [stored, hkind]
        exact ⟨_, _, rfl, rfl, h⟩
    | other =>
        simp only [stored, hkind]
        exact ⟨_, _, rfl, rfl, h⟩
  · rw [if_pos (htest.mpr hkey), if_neg hkey]
    exact ⟨_, _, rfl, rfl, h⟩

theorem extend_eq (h : array.Holds type.elementSize es) {amount : Int64} (memory : Nat → UInt8)
    (hnonneg : 0 ≤ amount.toInt) (hsize : es.length + amount.toInt < 2 ^ 32)
    (hold : type.elementSize * es.length = 8 * es.length)
    (hnew : type.elementSize * amount.toInt ≤ 8 * amount.toInt) :
    ∃ array', fbArrayExtend array memory amount = some (array', [.integer amount]) ∧
      array'.Holds type.elementSize
        (es ++ List.replicate amount.toInt.toNat (List.replicate type.elementSize 0)) := by
  have hlow := low_control amount
  have hamount : amount.toInt32.toUInt32.toNat = amount.toInt.toNat := by omega
  have hnew' : type.elementSize * amount.toInt.toNat ≤ 8 * amount.toInt.toNat := by
    rw [← Int.ofNat_le, Int.natCast_mul, Int.natCast_mul, Int.toNat_of_nonneg hnonneg]
    exact hnew
  have hsize' : es.length + amount.toInt32.toUInt32.toNat < 2 ^ 32 := by omega
  obtain ⟨array', hextend, h'⟩ := h.extend memory hsize' hold (by rwa [hamount])
  rw [hamount] at h'
  refine ⟨array', ?_, h'⟩
  rw [fbArrayExtend, hextend]
  rfl

/-! ## Runs -/

/-- A script that makes these calls sees the list of the elements: each call is over without an
access outside of the allocation, answers what it should and leaves what it should in memory. -/
def SeesList (type : TypeInfo) (s : State) (es : List (List UInt8)) (calls : List Call) : Prop :=
  ∃ s' es' answers, respond (call type) s calls = some (s', answers) ∧
    respond (fun es c => some (view type es c)) es calls = some (es', answers) ∧
    s'.array.Holds type.elementSize es'

theorem call_eq {s : State} (h : s.array.Holds type.elementSize es) {c : Call}
    (hc : Meets type es.length c) :
    ∃ s', call type s c = some (s', (view type es c).2) ∧
      s'.array.Holds type.elementSize (view type es c).1 := by
  cases c with
  | index key =>
      refine ⟨s, ?_, h⟩
      cases key with
      | string str =>
          simp only [call, view, viewIndex, fbArrayIndex]
          split
          · rfl
          · split <;> rfl
      | integer key =>
          obtain ⟨result, hresult, hanswer⟩ := Option.map_eq_some_iff.mp (index_eq h hc.1 hc.2)
          show (fbArrayIndex type s.array (.integer key)).bind _ = _
          rw [hresult]
          exact congrArg (fun answer => some (s, answer)) hanswer
  | newIndex key arg =>
      obtain ⟨s', result, hresult, hanswer, h'⟩ := newIndex_eq h arg hc.1 hc.2
      refine ⟨s', ?_, h'⟩
      show (fbArrayNewIndex type s key arg).bind _ = _
      rw [hresult]
      exact congrArg (fun answer => some (s', answer)) hanswer
  | extend amount memory =>
      obtain ⟨hnonneg, hsize, hold, hnew⟩ := hc
      obtain ⟨array', hextend, h'⟩ := extend_eq h memory hnonneg hsize (by omega) hnew
      refine ⟨{ s with array := array' }, ?_, h'⟩
      show (fbArrayExtend s.array memory amount).bind _ = _
      rw [hextend]
      rfl
  | next control =>
      refine ⟨s, ?_, h⟩
      obtain ⟨results, hresults, hanswer⟩ := Option.map_eq_some_iff.mp (next_eq h hc.1 hc.2)
      show (fbArrayIterator type s.array control).bind _ = _
      rw [hresults]
      exact congrArg (fun answer => some (s, answer)) hanswer
  | pairs =>
      refine ⟨s, ?_, h⟩
      have hpairs : forPairs type s.array (es.length + 1) 0 = some (es.zipIdx.map fun e =>
          [.integer (Int64.ofNat (e.2 + 1)), shown type e.2 e.1]) := by
        rcases hc with hempty | hc
        · obtain rfl := List.length_eq_zero_iff.mp hempty
          rw [forPairs, iterator_of_ge h (by decide)]
          rfl
        · exact forPairs_eq hc.1 hc.2 es [] (es.length + 1) rfl h (Nat.lt_succ_self _)
      simp only [call, view, h.size, Option.bind_eq_bind, Option.bind_some, h.toNat_size, hpairs]

theorem seesList_of_meets {s : State} (h : s.array.Holds type.elementSize es) (calls : List Call)
    (hcalls : ∀ m ∈ moves (fun es c => some (view type es c).1) es calls,
      Meets type m.1.length m.2) : SeesList type s es calls := by
  refine respond_of_simulation (fun (s : State) es => s.array.Holds type.elementSize es)
    (fun es c => Meets type es.length c) ?_ h calls hcalls
  intro s es c h hc
  exact call_eq h hc

end

/-- An array of one element, in an allocation of its own. -/
def single (e : List UInt8) : State where
  array := ⟨some { block := [0, 0, 0, 0] ++ leBytes 4 1 ++ e, offset := 8 }⟩
  refCounts := fun _ => 0

theorem single_holds {w : Nat} {e : List UInt8} (hw : e.length = w) :
    (single e).array.Holds w [e] where
  header_le := by
    show 4 ≤ 8
    decide
  elements_le := by simp [hw]; omega
  size_eq := rfl
  rows_eq := by
    subst hw
    simp [rows, cells]

/-- Three pointers to containers. -/
def pointers : List (List UInt8) := [leBytes 8 0x10, leBytes 8 0x20, leBytes 8 0x30]

def three : State where
  array := ⟨some { block := [0, 0, 0, 0] ++ leBytes 4 3 ++ pointers.flatten, offset := 8 }⟩
  refCounts := fun _ => 0

theorem three_holds : three.array.Holds 8 pointers where
  header_le := by decide
  elements_le := by decide
  size_eq := by decide
  rows_eq := by decide

def pointerType : TypeInfo := ⟨1, .classType, 24, false, 0⟩

/-- A pointer is replaced, two are added, and the list is read in between and behind its end. -/
theorem seesList_pointers : SeesList pointerType three pointers
    [.newIndex 2 (.userdata 77 fun _ => 0), .index (.integer 2), .index (.integer 4),
      .extend 2 (fun _ => 1), .newIndex 5 (.userdata 78 fun _ => 0), .index (.integer 4), .next 4,
      .pairs] :=
  seesList_of_meets (show three.array.Holds pointerType.elementSize pointers from three_holds) _
    (by decide)

/-- A vector of four floats is read as an array, with its first two for the place of this. -/
theorem not_seesList_vector :
    (single ([0, 0, 128, 63] ++ leBytes 12 0)).array.Holds 16 [[0, 0, 128, 63] ++ leBytes 12 0] ∧
    ¬ SeesList ⟨1, .valueType, 16, true, 0⟩ (single ([0, 0, 128, 63] ++ leBytes 12 0))
      [[0, 0, 128, 63] ++ leBytes 12 0] [.index (.integer 1)] := by
  refine ⟨single_holds rfl, fun h => ?_⟩
  obtain ⟨s', es', answers, hcode, hview, -⟩ := h
  have hcode := congrArg (Option.map Prod.snd) hcode
  have hview := congrArg (Option.map Prod.snd) hview
  have hread : (respond (call ⟨1, .valueType, 16, true, 0⟩)
      (single ([0, 0, 128, 63] ++ leBytes 12 0)) [.index (.integer 1)]).map Prod.snd =
        some [.values [.fbArray 0 (.address 0x3f800000)]] := by decide
  have hshown : (respond (fun es c => some (view ⟨1, .valueType, 16, true, 0⟩ es c))
      [[0, 0, 128, 63] ++ leBytes 12 0] [.index (.integer 1)]).map Prod.snd =
        some [.values [.valueType 1 (.fromData 0)]] := by decide
  rw [hread] at hcode
  rw [hshown] at hview
  exact absurd (hcode.trans hview.symm) (by decide)

end Kyber.Script.Containers
