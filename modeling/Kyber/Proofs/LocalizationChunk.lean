import Kyber.Proofs.ChunkLayout
import Kyber.Proofs.Histogram
import Mathlib.Data.List.Nodup

/-!
# A chunk with the strings of the mods

`ModifyChunk` keeps nothing of the layout it finds: it takes the strings out of the chunk, puts
those of the mods among them, and lays everything out anew, in the order of the ids. When that
goes through is known of the layout (`modifyChunk_eq_ok_iff`), and so is how it is read back. What
is left is which string is written for an id.

A string ends at its first NUL, in the chunk that comes in and in the one that goes out. What was
read has none, so it survives. What was encoded can have one: the code of a character is made of
indices, and an index can be zero. So the strings of the mods are cut short exactly if a
character of theirs has a code with a zero in it (`WritesNul`).
-/

namespace Kyber.ModLoader

open Kyber.Lib

/-! ## What is promised -/

/-- `out` is a chunk again, with the strings of `bytes` and those of the mods, which come first. -/
structure IsMerged (bytes : List UInt8) (chunk : LocalizationChunk) (data : LocalizationMergeData)
    (values : WideString) (out : List UInt8) (merged : LocalizationChunk) : Prop where
  wellFormed : WellFormed out merged
  sorted : merged.ids.Pairwise (· < ·)
  mem_ids : ∀ id, id ∈ merged.ids ↔ id ∈ chunk.ids ∨ id ∈ data.strings
  replaced : ∀ row ∈ merged.table, ∀ str, data.strings[row.1]? = some str →
    ∀ shifts, histogramShifts values = .ok shifts →
      merged.stringBytes out row = (encodeString values shifts str).map UInt16.toUInt8
  untouched : ∀ row ∈ merged.table, row.1 ∉ data.strings → ∀ old ∈ chunk.table, old.1 = row.1 →
    merged.stringBytes out row = chunk.stringBytes bytes old
  tag : merged.tag = chunk.tag
  size : merged.size.toNat + 8 = out.length
  count : merged.count.toNat = merged.table.length
  dataOffset : merged.dataOffset = 0x8C
  stringsOffset : merged.stringsOffset.toNat = 0x8C + 8 * merged.table.length

/-- `ModifyChunk` answers the merged chunk. -/
def Merges (bytes : List UInt8) (chunk : LocalizationChunk) (data : LocalizationMergeData)
    (values : WideString) : Prop :=
  ∃ out merged, modifyChunk bytes data values = .ok out ∧
    IsMerged bytes chunk data values out merged

/-! ## When it is kept -/

/-- There is a zero in the code of a character: it is NUL itself, it is the first of the table,
or one of its two bytes is zero, the shift or the offset. -/
def WritesNul (values : WideString) (b : UInt16) : Prop :=
  b = 0 ∨ 0x80 ≤ b ∧ ∃ i, values.findIdx? (· == b) = some i ∧
    (i = 0 ∨ 0xFF < i ∧ ∃ j, Accepts values i j ∧ (∀ k, Accepts values i k → k ≤ j) ∧
      (j = 0x100 ∨ (i + 0x80) % 0x100 = (values.getD (j % 0x100) 0).toNat * 128 % 0x100))

open Classical in
/-- How many bytes a character takes. -/
noncomputable def codeLength (values : WideString) (b : UInt16) : Nat :=
  if b < 0x80 then
    1
  else
    match values.findIdx? (· == b) with
    | none => 0
    | some i => if i ≤ 0xFF then 1 else if ∃ j, Accepts values i j then 2 else 0

noncomputable def encodedLength (values str : WideString) : Nat :=
  (str.map (codeLength values)).sum

/-- The rows of the chunk whose strings stay. -/
def keptRows (chunk : LocalizationChunk) (data : LocalizationMergeData) : List (UInt32 × UInt32) :=
  chunk.table.filter fun row => !data.strings.contains row.1

/-- The histogram has the entries that are looked at, no string of the mods has a character with
a zero in its code, and no string nor the whole is too long to be written. -/
structure Mergeable (bytes : List UInt8) (chunk : LocalizationChunk)
    (data : LocalizationMergeData) (values : WideString) : Prop where
  histogram : 0x1FF ≤ values.length
  nulFree : ∀ entry ∈ data.strings.toList, ∀ b ∈ entry.2, ¬ WritesNul values b
  encoded : ∀ entry ∈ data.strings.toList, encodedLength values entry.2 < 2 ^ 31
  kept : ∀ row ∈ keptRows chunk data, (chunk.stringBytes bytes row).length < 2 ^ 31
  fits : 0x94 + ((data.strings.toList.map fun entry => 9 + encodedLength values entry.2).sum
    + ((keptRows chunk data).map fun row => 9 + (chunk.stringBytes bytes row).length).sum) < 2 ^ 32

/-! ## The code of a character -/

section

variable {values : WideString}

theorem encodeChar_near {shifts : List UInt8} {b : UInt16} {i : Nat} (hb : 0x80 ≤ b)
    (hi : values.findIdx? (· == b) = some i) (hnear : i ≤ 0xFF) :
    encodeChar values shifts b = [UInt16.ofNat i] := by
  rw [encodeChar, if_neg (UInt16.not_lt.mpr hb), hi]
  exact if_pos hnear

theorem encodeChar_none {shifts : List UInt8} {b : UInt16} (hb : 0x80 ≤ b)
    (hi : values.findIdx? (· == b) = none) : encodeChar values shifts b = [] := by
  rw [encodeChar, if_neg (UInt16.not_lt.mpr hb), hi]

theorem toUInt8_eq_zero_iff {b : UInt16} (hb : b.toNat < 0x100) : 0 = b.toUInt8 ↔ b = 0 := by
  rw [← UInt8.toNat_inj, ← UInt16.toNat_inj, UInt16.toNat_toUInt8]
  show 0 = b.toNat % 2 ^ 8 ↔ b.toNat = 0
  omega

/-- The second byte of a pair is zero where the index is 0x80 below the shift, or a multiple of
0x100 further. -/
theorem offset_eq_zero_iff {i j : Nat} :
    0 = UInt8.ofInt (shifted values i (UInt8.ofNat j) + 0x80)
      ↔ (i + 0x80) % 0x100 = (values.getD (j % 0x100) 0).toNat * 128 % 0x100 := by
  have hj : (UInt8.ofNat j).toNat = j % 0x100 := UInt8.toNat_ofNat'
  rw [← UInt8.toNat_inj, UInt8.ofInt, UInt8.toNat_ofNat', shifted, hj]
  show 0 = _ ↔ _
  omega

/-- A pair has a zero in it where the last entry that is accepted is the one at 0x100, or the
second byte is zero. -/
theorem mem_nul_encodeChar_of_far {b : UInt16} {i : Nat} (hb : 0x80 ≤ b)
    (hi : values.findIdx? (· == b) = some i) (hfar : 0xFF < i) :
    0 ∈ (encodeChar values ((collected values).map UInt8.ofNat) b).map UInt16.toUInt8
      ↔ ∃ j, Accepts values i j ∧ (∀ k, Accepts values i k → k ≤ j) ∧
        (j = 0x100 ∨ (i + 0x80) % 0x100 = (values.getD (j % 0x100) 0).toNat * 128 % 0x100) := by
  obtain ⟨j, hj, hmax, heq⟩ | ⟨hnone, heq⟩ := encodeChar_cases hb hi hfar
  · have hbyte : 0 = UInt8.ofNat j ↔ j = 0x100 := by
      have hlow := hj.low
      have hhigh := hj.high
      rw [← UInt8.toNat_inj, UInt8.toNat_ofNat']
      show 0 = _ ↔ _
      omega
    rw [heq, List.map_cons, List.map_singleton, UInt8.toUInt8_toUInt16, UInt8.toUInt8_toUInt16,
      List.mem_cons, List.mem_singleton, hbyte, offset_eq_zero_iff]
    refine ⟨fun h => ⟨j, hj, hmax, h⟩, fun h => ?_⟩
    obtain ⟨k, hk, hkmax, h⟩ := h
    obtain rfl : k = j := Nat.le_antisymm (hmax k hk) (hkmax j hj)
    exact h
  · rw [heq]
    refine iff_of_false List.not_mem_nil fun h => ?_
    obtain ⟨j, hj, -⟩ := h
    exact hnone j hj

/-- There is a zero in the code of a character exactly if it is one of those that are named. -/
theorem mem_nul_encodeChar (b : UInt16) :
    0 ∈ (encodeChar values ((collected values).map UInt8.ofNat) b).map UInt16.toUInt8
      ↔ WritesNul values b := by
  rw [WritesNul]
  by_cases hb : 0x80 ≤ b
  · have hne : b ≠ 0 := by
      intro h
      rw [h] at hb
      exact absurd hb (by decide)
    rw [or_iff_right hne, and_iff_right hb]
    cases hi : values.findIdx? (· == b) with
    | none =>
        rw [encodeChar_none hb hi]
        simp
    | some i =>
        by_cases hnear : i ≤ 0xFF
        · have hlt : (UInt16.ofNat i).toNat = i :=
            UInt16.toNat_ofNat_of_lt' (Nat.lt_of_le_of_lt hnear (by decide))
          rw [encodeChar_near hb hi hnear, List.map_singleton, List.mem_singleton,
            toUInt8_eq_zero_iff (by omega), ← UInt16.toNat_inj, hlt]
          show i = 0 ↔ _
          simp [Nat.not_lt.mpr hnear]
        · have hfar : 0xFF < i := Nat.not_le.mp hnear
          have hi0 : i ≠ 0 := by omega
          rw [mem_nul_encodeChar_of_far hb hi hfar]
          simp [hi0, hfar]
  · have hlt : b < 0x80 := UInt16.not_le.mp hb
    have hnat : b.toNat < 0x80 := hlt
    rw [encodeChar, if_pos hlt, List.map_singleton, List.mem_singleton,
      toUInt8_eq_zero_iff (by omega)]
    simp [hb]

theorem length_encodeChar (b : UInt16) :
    (encodeChar values ((collected values).map UInt8.ofNat) b).length = codeLength values b := by
  rw [codeLength]
  by_cases hb : 0x80 ≤ b
  · rw [if_neg (UInt16.not_lt.mpr hb)]
    cases hi : values.findIdx? (· == b) with
    | none =>
        rw [encodeChar_none hb hi]
        rfl
    | some i =>
        dsimp only
        by_cases hnear : i ≤ 0xFF
        · rw [encodeChar_near hb hi hnear, if_pos hnear]
          rfl
        · rw [if_neg hnear]
          obtain ⟨j, hj, -, heq⟩ | ⟨hnone, heq⟩ := encodeChar_cases hb hi (Nat.not_le.mp hnear)
          · rw [heq, if_pos ⟨j, hj⟩]
            rfl
          · rw [heq, if_neg (not_exists.mpr hnone)]
            rfl
  · rw [encodeChar, if_pos (UInt16.not_le.mp hb), if_pos (UInt16.not_le.mp hb)]
    rfl

theorem nulFree_encodeString (str : WideString) :
    0 ∉ (encodeString values ((collected values).map UInt8.ofNat) str).map UInt16.toUInt8
      ↔ ∀ b ∈ str, ¬ WritesNul values b := by
  rw [encodeString, List.map_flatMap, List.mem_flatMap]
  simp only [mem_nul_encodeChar, not_exists, not_and]

theorem length_encodeString (str : WideString) :
    (encodeString values ((collected values).map UInt8.ofNat) str).length
      = encodedLength values str := by
  rw [encodeString, List.length_flatMap, encodedLength]
  simp only [length_encodeChar]

end

/-! ## The strings of the mods -/

section

variable {values : WideString} {shifts : List UInt8}

theorem foldl_mergeString_strings (entries : List (UInt32 × WideString))
    (merged : List UInt32 × Std.TreeMap UInt32 WideString) :
    (entries.foldl (mergeString values shifts) merged).2
      = entries.foldl (fun strings entry =>
          strings.insert entry.1 (encodeString values shifts entry.2)) merged.2 := by
  induction entries generalizing merged with
  | nil => rfl
  | cons entry entries ih => exact ih _

theorem mem_foldl_mergeString {entries : List (UInt32 × WideString)}
    {merged : List UInt32 × Std.TreeMap UInt32 WideString} {id : UInt32} :
    id ∈ (entries.foldl (mergeString values shifts) merged).1
      ↔ id ∈ merged.1 ∨ id ∈ entries.map Prod.fst := by
  induction entries generalizing merged with
  | nil => simp
  | cons entry entries ih =>
      rw [List.foldl_cons, ih, List.map_cons, List.mem_cons, ← or_assoc]
      refine or_congr_left ?_
      rw [mergeString]
      dsimp only
      by_cases h : entry.1 ∈ merged.1
      · rw [if_pos (List.contains_iff_mem.mpr h)]
        constructor
        · exact .inl
        · rintro (hid | rfl)
          · exact hid
          · exact h
      · rw [if_neg (by simpa using h), List.mem_append, List.mem_singleton]

theorem nodup_foldl_mergeString {entries : List (UInt32 × WideString)}
    {merged : List UInt32 × Std.TreeMap UInt32 WideString} (h : merged.1.Nodup) :
    (entries.foldl (mergeString values shifts) merged).1.Nodup := by
  induction entries generalizing merged with
  | nil => exact h
  | cons entry entries ih =>
      rw [List.foldl_cons]
      refine ih ?_
      rw [mergeString]
      dsimp only
      by_cases hmem : entry.1 ∈ merged.1
      · rwa [if_pos (List.contains_iff_mem.mpr hmem)]
      · rw [if_neg (by simpa using hmem), ← List.concat_eq_append]
        exact h.concat hmem

end

theorem toUInt8_widen (c : UInt8) : (widen c).toUInt8 = c := by
  have h : ∀ n : Fin 256, (widen (UInt8.ofNat n)).toUInt8 = UInt8.ofNat n := by decide +kernel
  have hc := h ⟨c.toNat, c.toNat_lt⟩
  rwa [UInt8.ofNat_toNat] at hc

section

variable {bytes : List UInt8} {chunk : LocalizationChunk} {data : LocalizationMergeData}
  {values : WideString}

/-- What the loop over the strings of the mods leaves. -/
def mergedStrings (chunk : LocalizationChunk) (data : LocalizationMergeData)
    (values : WideString) : List UInt32 × Std.TreeMap UInt32 WideString :=
  data.strings.toList.foldl (mergeString values ((collected values).map UInt8.ofNat))
    (chunk.ids, chunk.strings)

/-- The bytes that are written for an id. -/
def mergedBytes (chunk : LocalizationChunk) (data : LocalizationMergeData) (values : WideString)
    (id : UInt32) : List UInt8 :=
  written (mergedStrings chunk data values).2 id

theorem mergedBytes_of_entry {entry : UInt32 × WideString} (h : entry ∈ data.strings.toList) :
    mergedBytes chunk data values entry.1
      = ((encodeString values ((collected values).map UInt8.ofNat) entry.2).map
          UInt16.toUInt8).takeWhile (· ≠ 0) := by
  have hget := getElem?_foldl_insert_of_mem Prod.fst (fun entry : UInt32 × WideString =>
      encodeString values ((collected values).map UInt8.ofNat) entry.2)
    (keys_nodup data.strings) h chunk.strings
  rw [mergedBytes, written, mergedStrings, foldl_mergeString_strings,
    Std.TreeMap.getD_eq_getD_getElem?, hget]
  rfl

theorem mergedBytes_of_kept (hwf : WellFormed bytes chunk) {row : UInt32 × UInt32}
    (hrow : row ∈ chunk.table) (hnot : row.1 ∉ data.strings) (values : WideString) :
    mergedBytes chunk data values row.1 = chunk.stringBytes bytes row := by
  have hpos : (chunk.stringsOffset + row.2 + 8).toNat = chunk.stringPos row := by
    have hlt := Nat.lt_trans (hwf.strings row hrow) hwf.size
    rw [LocalizationChunk.stringPos] at hlt ⊢
    rw [UInt32.toNat_add, UInt32.toNat_add]
    show (_ % 2 ^ 32 + 8) % 2 ^ 32 = _
    omega
  have hnot' : row.1 ∉ data.strings.toList.map Prod.fst := by
    rwa [Std.TreeMap.map_fst_toList_eq_keys, Std.TreeMap.mem_keys]
  have hget := getElem?_foldl_insert_of_mem Prod.fst (fun row : UInt32 × UInt32 =>
      ((bytes.drop (chunk.stringsOffset + row.2 + 8).toNat).takeWhile (· ≠ 0)).map widen)
    hwf.ids hrow {}
  rw [mergedBytes, written, mergedStrings, foldl_mergeString_strings,
    Std.TreeMap.getD_eq_getD_getElem?, getElem?_foldl_insert_of_notMem hnot',
    hwf.contents.2.2, stringsOf, hget, Option.getD_some, List.map_map, hpos]
  have hid : UInt16.toUInt8 ∘ widen = id := funext toUInt8_widen
  rw [hid, List.map_id, takeWhile_idem]
  rfl

/-- The ids of the chunk that is written. -/
def mergedIds (chunk : LocalizationChunk) (data : LocalizationMergeData) (values : WideString) :
    List UInt32 :=
  (mergedStrings chunk data values).1.mergeSort

end

/-- When `ModifyChunk` goes through, and with what. -/
theorem modifyChunk_eq_ok_iff {bytes : List UInt8} {chunk : LocalizationChunk}
    (hwf : WellFormed bytes chunk) {data : LocalizationMergeData} {values : WideString}
    {out : List UInt8} :
    modifyChunk bytes data values = .ok out ↔ 0x1FF ≤ values.length ∧
      (∀ id ∈ mergedIds chunk data values, (mergedBytes chunk data values id).length < 2 ^ 31) ∧
      (layOut chunk.tag (mergedBytes chunk data values) (mergedIds chunk data values)).length
        < 2 ^ 32 ∧
      out = layOut chunk.tag (mergedBytes chunk data values) (mergedIds chunk data values) := by
  obtain ⟨inBuf, s, hmagic, hread⟩ := hwf.reads
  have htag : chunk.tag.length < 0x80 := by
    have := hwf.tag
    omega
  rw [modifyChunk, hmagic, except_ok_bind]
  dsimp only
  rw [if_neg (by simp), hread, except_ok_bind]
  dsimp only
  by_cases hlen : 0x1FF ≤ values.length
  · rw [histogramShifts_eq hlen, except_ok_bind, and_iff_right hlen]
    have hmerged : data.strings.toList.foldl
        (mergeString values ((collected values).map UInt8.ofNat)) (chunk.ids, chunk.strings)
        = mergedStrings chunk data values := rfl
    have hbytes : mergedBytes chunk data values
        = written (mergedStrings chunk data values).2 := rfl
    rw [hmerged, hbytes, mergedIds]
    generalize mergedStrings chunk data values = merged
    obtain ⟨ids, strings⟩ := merged
    dsimp only
    exact writeMerged_eq_ok_iff hwf.contents.2.1 htag strings ids.mergeSort
  · rw [histogramShifts, if_pos (by omega)]
    refine iff_of_false ?_ fun h => hlen h.1
    intro h
    cases h

/-! ## All together -/

section

variable {bytes : List UInt8} {chunk : LocalizationChunk} {data : LocalizationMergeData}
  {values : WideString}

theorem mem_mergedIds {id : UInt32} :
    id ∈ mergedIds chunk data values ↔ id ∈ chunk.ids ∨ id ∈ data.strings := by
  rw [mergedIds, List.mem_mergeSort, mergedStrings, mem_foldl_mergeString,
    Std.TreeMap.map_fst_toList_eq_keys, Std.TreeMap.mem_keys]

theorem nodup_mergedIds (hwf : WellFormed bytes chunk) : (mergedIds chunk data values).Nodup :=
  (List.mergeSort_perm _ _).nodup_iff.mpr (nodup_foldl_mergeString hwf.ids)

theorem sorted_mergedIds (hwf : WellFormed bytes chunk) :
    (mergedIds chunk data values).Pairwise (· < ·) := by
  have hle : (mergedIds chunk data values).Pairwise fun a b => decide (a ≤ b) = true :=
    List.pairwise_mergeSort (by simpa using fun a b c => UInt32.le_trans)
      (by simpa using UInt32.le_total) _
  refine (hle.and (nodup_mergedIds hwf)).imp ?_
  rintro a b ⟨hab, hne⟩
  exact UInt32.lt_of_le_of_ne (of_decide_eq_true hab) hne

theorem fst_mem_of_mem_toList {entry : UInt32 × WideString} (h : entry ∈ data.strings.toList) :
    entry.1 ∈ data.strings := by
  rw [← Std.TreeMap.mem_keys, ← Std.TreeMap.map_fst_toList_eq_keys]
  exact List.mem_map_of_mem h

theorem mem_keptRows {row : UInt32 × UInt32} :
    row ∈ keptRows chunk data ↔ row ∈ chunk.table ∧ row.1 ∉ data.strings := by
  rw [keptRows, List.mem_filter, Bool.not_eq_true', Bool.eq_false_iff, ne_eq,
    Std.TreeMap.contains_iff_mem]

/-- The ids of the merged chunk are those of the mods and those that are kept. -/
theorem mergedIds_perm (hwf : WellFormed bytes chunk) :
    (mergedIds chunk data values).Perm
      (data.strings.toList.map Prod.fst ++ (keptRows chunk data).map Prod.fst) := by
  have hkept : ((keptRows chunk data).map Prod.fst).Nodup :=
    hwf.ids.sublist (List.filter_sublist.map Prod.fst)
  have hdisjoint : ∀ a ∈ data.strings.toList.map Prod.fst,
      ∀ b ∈ (keptRows chunk data).map Prod.fst, a ≠ b := by
    rintro a ha b hb rfl
    obtain ⟨row, hrow, rfl⟩ := List.mem_map.mp hb
    rw [Std.TreeMap.map_fst_toList_eq_keys, Std.TreeMap.mem_keys] at ha
    exact (mem_keptRows.mp hrow).2 ha
  refine (List.perm_ext_iff_of_nodup (nodup_mergedIds hwf)
    (List.nodup_append.mpr ⟨keys_nodup data.strings, hkept, hdisjoint⟩)).mpr ?_
  intro id
  rw [mem_mergedIds, List.mem_append, Std.TreeMap.map_fst_toList_eq_keys, Std.TreeMap.mem_keys,
    LocalizationChunk.ids]
  by_cases hid : id ∈ data.strings
  · exact iff_of_true (.inr hid) (.inl hid)
  · rw [or_iff_left hid, or_iff_right hid, List.mem_map, List.mem_map]
    constructor
    · rintro ⟨row, hrow, rfl⟩
      exact ⟨row, mem_keptRows.mpr ⟨hrow, hid⟩, rfl⟩
    · rintro ⟨row, hrow, rfl⟩
      exact ⟨row, (mem_keptRows.mp hrow).1, rfl⟩

theorem mergedBytes_of_nulFree {entry : UInt32 × WideString} (h : entry ∈ data.strings.toList)
    (hfree : ∀ b ∈ entry.2, ¬ WritesNul values b) :
    mergedBytes chunk data values entry.1
      = (encodeString values ((collected values).map UInt8.ofNat) entry.2).map UInt16.toUInt8 := by
  rw [mergedBytes_of_entry h]
  exact List.takeWhile_eq_self_iff.mpr
    (nonzero_of_nulFree ((nulFree_encodeString entry.2).mpr hfree))

theorem length_mergedBytes (chunk : LocalizationChunk) {entry : UInt32 × WideString}
    (h : entry ∈ data.strings.toList)
    (hfree : ∀ b ∈ entry.2, ¬ WritesNul values b) :
    (mergedBytes chunk data values entry.1).length = encodedLength values entry.2 := by
  rw [mergedBytes_of_nulFree h hfree, List.length_map, length_encodeString]

/-- How long the merged chunk is. -/
theorem length_merged (hwf : WellFormed bytes chunk)
    (hfree : ∀ entry ∈ data.strings.toList, ∀ b ∈ entry.2, ¬ WritesNul values b) :
    (layOut chunk.tag (mergedBytes chunk data values) (mergedIds chunk data values)).length
      = 0x94 + ((data.strings.toList.map fun entry => 9 + encodedLength values entry.2).sum
        + ((keptRows chunk data).map fun row => 9 + (chunk.stringBytes bytes row).length).sum) := by
  have hentries : (data.strings.toList.map Prod.fst).map
      (fun id => 9 + (mergedBytes chunk data values id).length)
      = data.strings.toList.map fun entry => 9 + encodedLength values entry.2 := by
    rw [List.map_map]
    refine List.map_congr_left fun entry hentry => ?_
    exact congrArg (9 + ·) (length_mergedBytes chunk hentry (hfree entry hentry))
  have hkept : ((keptRows chunk data).map Prod.fst).map
      (fun id => 9 + (mergedBytes chunk data values id).length)
      = (keptRows chunk data).map fun row => 9 + (chunk.stringBytes bytes row).length := by
    rw [List.map_map]
    refine List.map_congr_left fun row hrow => ?_
    obtain ⟨hmem, hnot⟩ := mem_keptRows.mp hrow
    exact congrArg (9 + List.length ·) (mergedBytes_of_kept hwf hmem hnot values)
  rw [length_layOut (Nat.lt_of_add_lt_add_left hwf.tag), length_area,
    ((mergedIds_perm hwf).map _).sum_nat, List.map_append, List.sum_append, hentries, hkept]

theorem short_of_mergeable (hwf : WellFormed bytes chunk) (h : Mergeable bytes chunk data values) :
    ∀ id ∈ mergedIds chunk data values, (mergedBytes chunk data values id).length < 2 ^ 31 := by
  intro id hid
  obtain hid | hid := List.mem_append.mp ((mergedIds_perm hwf).mem_iff.mp hid)
  · obtain ⟨entry, hentry, rfl⟩ := List.mem_map.mp hid
    rw [length_mergedBytes chunk hentry (h.nulFree entry hentry)]
    exact h.encoded entry hentry
  · obtain ⟨row, hrow, rfl⟩ := List.mem_map.mp hid
    obtain ⟨hmem, hnot⟩ := mem_keptRows.mp hrow
    rw [mergedBytes_of_kept hwf hmem hnot values]
    exact h.kept row hrow

theorem nulFree_mergedBytes (id : UInt32) : 0 ∉ mergedBytes chunk data values id :=
  nulFree_takeWhile _

/-- A string that is whole in the merged chunk has no zero in it. -/
theorem IsMerged.nulFree {out : List UInt8} {merged : LocalizationChunk}
    (h : IsMerged bytes chunk data values out merged) (hlen : 0x1FF ≤ values.length) :
    ∀ entry ∈ data.strings.toList, ∀ b ∈ entry.2, ¬ WritesNul values b := by
  intro entry hentry
  have hget := Std.TreeMap.mem_toList_iff_getElem?_eq_some.mp hentry
  have hid : entry.1 ∈ merged.ids := (h.mem_ids _).mpr (.inr (fst_mem_of_mem_toList hentry))
  obtain ⟨row, hrow, hrid⟩ := List.mem_map.mp hid
  have hbytes := h.replaced row hrow entry.2 (by rw [hrid]; exact hget) _
    (histogramShifts_eq hlen)
  rw [← nulFree_encodeString, ← hbytes]
  exact nulFree_takeWhile _

/-- The chunk is merged exactly if no string of the mods has a character with a zero in its
code, the histogram is long enough and there is room. -/
theorem merges_iff (hwf : WellFormed bytes chunk) :
    Merges bytes chunk data values ↔ Mergeable bytes chunk data values := by
  have htag : chunk.tag.length < 0x80 := Nat.lt_of_add_lt_add_left hwf.tag
  constructor
  · rintro ⟨out, merged, hout, hm⟩
    have hfree := hm.nulFree ((modifyChunk_eq_ok_iff hwf).mp hout).1
    obtain ⟨hlen, hshort, hfit, rfl⟩ := (modifyChunk_eq_ok_iff hwf).mp hout
    refine ⟨hlen, hfree, ?_, ?_, ?_⟩
    · intro entry hentry
      rw [← length_mergedBytes chunk hentry (hfree entry hentry)]
      exact hshort _ (mem_mergedIds.mpr (.inr (fst_mem_of_mem_toList hentry)))
    · intro row hrow
      obtain ⟨hmem, hnot⟩ := mem_keptRows.mp hrow
      rw [← mergedBytes_of_kept hwf hmem hnot values]
      exact hshort _ (mem_mergedIds.mpr (.inl (List.mem_map_of_mem hmem)))
    · rwa [← length_merged hwf hfree]
  · intro h
    have hfit : (layOut chunk.tag (mergedBytes chunk data values)
        (mergedIds chunk data values)).length < 2 ^ 32 := by
      rw [length_merged hwf h.nulFree]
      exact h.fits
    have hstring : ∀ row ∈ (layOutChunk chunk.tag (mergedBytes chunk data values)
        (mergedIds chunk data values)).table, _ = mergedBytes chunk data values row.1 :=
      fun _ => stringBytes_layOutChunk hfit htag nulFree_mergedBytes
    refine ⟨_, layOutChunk chunk.tag (mergedBytes chunk data values)
      (mergedIds chunk data values), (modifyChunk_eq_ok_iff hwf).mpr
        ⟨h.histogram, short_of_mergeable hwf h, hfit, rfl⟩, ?_⟩
    refine {
      wellFormed := layOutChunk_wellFormed hfit htag hwf.contents.2.1 (nodup_mergedIds hwf)
      sorted := by
        rw [ids_layOutChunk]
        exact sorted_mergedIds hwf
      mem_ids := by
        rw [ids_layOutChunk]
        exact fun id => mem_mergedIds
      replaced := ?_
      untouched := ?_
      tag := rfl
      size := size_layOutChunk hfit
      count := (count_layOutChunk hfit htag).trans (length_table 0 _).symm
      dataOffset := rfl
      stringsOffset := by
        rw [stringsOffset_layOutChunk hfit htag, layOutChunk, length_table] }
    · intro row hrow str hget shifts hshifts
      obtain rfl := Except.ok.inj ((histogramShifts_eq h.histogram).symm.trans hshifts)
      have hentry := Std.TreeMap.mem_toList_iff_getElem?_eq_some.mpr hget
      rw [hstring row hrow]
      exact mergedBytes_of_nulFree hentry (h.nulFree _ hentry)
    · intro row hrow hnot old hold hid
      rw [hstring row hrow, ← hid]
      exact mergedBytes_of_kept hwf hold (by rwa [hid]) values

end

/-- A chunk of one string. -/
def sampleChunk : LocalizationChunk := layOutChunk [] (fun _ => [0x41]) [3]

def sampleBytes : List UInt8 := layOut [] (fun _ => [0x41]) [3]

theorem sample_wellFormed : WellFormed sampleBytes sampleChunk :=
  layOutChunk_wellFormed (by rw [length_layOut (by decide)]; decide) (by decide) (by decide)
    (by decide)

/-- A string of plain characters is added. -/
theorem merges_sample :
    Merges sampleBytes sampleChunk
      { strings := ({} : Std.TreeMap UInt32 WideString).insert 7 [0x42] }
      (tableWithShift 0x80 2) := by
  have hentries : (({} : Std.TreeMap UInt32 WideString).insert 7 [0x42]).toList = [(7, [0x42])] :=
    rfl
  have hlength : encodedLength (tableWithShift 0x80 2) [0x42] = 1 := by
    simp [encodedLength, codeLength]
  have hkept : keptRows sampleChunk
      { strings := ({} : Std.TreeMap UInt32 WideString).insert 7 [0x42] } = [(3, 0)] := rfl
  have hbytes : sampleChunk.stringBytes sampleBytes (3, 0) = [0x41] :=
    stringBytes_layOutChunk (by rw [length_layOut (by decide)]; decide) (by decide)
      (fun _ => by decide) (List.mem_singleton.mpr rfl)
  refine (merges_iff sample_wellFormed).mpr ⟨length_tableWithShift _ _, ?_, ?_, ?_, ?_⟩
  · rw [hentries]
    intro entry hentry b hb
    obtain rfl := List.mem_singleton.mp hentry
    obtain rfl := List.mem_singleton.mp hb
    rintro (h | ⟨h, -⟩)
    · exact absurd h (by decide)
    · exact absurd h (by decide)
  · rw [hentries]
    intro entry hentry
    obtain rfl := List.mem_singleton.mp hentry
    rw [hlength]
    decide
  · rw [hkept]
    intro row hrow
    obtain rfl := List.mem_singleton.mp hrow
    rw [hbytes]
    decide
  · rw [hentries, hkept, List.map_singleton, List.map_singleton, hlength, hbytes]
    decide

/-- The entry at 0x100 is collected by its low byte, and that is a NUL in the string. -/
theorem string_cut_short : WellFormed sampleBytes sampleChunk ∧
    ¬ Merges sampleBytes sampleChunk
      { strings := ({} : Std.TreeMap UInt32 WideString).insert 7 [0x41, 0x1101, 0x42] }
      (tableWithShift 0x100 2) := by
  refine ⟨sample_wellFormed, ?_⟩
  rintro ⟨out, merged, -, hm⟩
  have hfree := hm.nulFree (length_tableWithShift _ _) (7, [0x41, 0x1101, 0x42])
    (Std.TreeMap.mem_toList_iff_getElem?_eq_some.mpr (by simp)) 0x1101 (by simp)
  have haccepts : Accepts (tableWithShift 0x100 2) 0x101 0x100 :=
    ⟨by decide, by decide, by decide +kernel, by decide +kernel⟩
  exact hfree (.inr ⟨by decide, 0x101, by decide +kernel,
    .inr ⟨by decide, 0x100, haccepts, fun k hk => (eq_of_accepts hk).le, .inl rfl⟩⟩)

end Kyber.ModLoader
