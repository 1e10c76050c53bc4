import Kyber.Lib.Maps
import Kyber.Proofs.ByteBuffer
import Kyber.ModLoader.LocalizationChunk

/-!
# The layout of a chunk

A chunk is written in one go: a header that is padded to a fixed length, the table, and the
strings. The offsets of the table are noted while the strings are written into a buffer of their
own, and the size is put in at the end. `writeMerged_eq_ok_iff` says when that goes through and
what the bytes are then (`layOut`).

Reading is the other half. The reader goes where the offsets send it, so what it finds depends on
the positions alone: the table is behind 0x94 bytes, and a string where its row says
(`drop_stringPos`). What is laid out is therefore read as what it was made of, and is well formed.
-/

namespace Kyber.ModLoader

open Kyber.Lib

/-! ## Chunks that are well formed -/

namespace LocalizationChunk

/-- Where the string of a row begins. -/
def stringPos (chunk : LocalizationChunk) (row : UInt32 × UInt32) : Nat :=
  chunk.stringsOffset.toNat + row.2.toNat + 8

/-- The bytes of the string of a row. -/
def stringBytes (chunk : LocalizationChunk) (bytes : List UInt8) (row : UInt32 × UInt32) :
    List UInt8 :=
  (bytes.drop (chunk.stringPos row)).takeWhile (· ≠ 0)

end LocalizationChunk

/-- The bytes are a chunk, and `chunk` is what is read of it. -/
structure WellFormed (bytes : List UInt8) (chunk : LocalizationChunk) : Prop where
  reads : ∃ inBuf s, getInt.run (.ofBytes bytes) = .ok (0x00039000, inBuf) ∧
    readLocalizationChunk.run inBuf = .ok (chunk, s)
  size : bytes.length < 2 ^ 32
  tag : 0x14 + chunk.tag.length < 0x94
  tagEnds : 0x14 + chunk.tag.length < bytes.length
  table : chunk.dataOffset.toNat + 8 + 8 * chunk.table.length ≤ bytes.length
  strings : ∀ row ∈ chunk.table, chunk.stringPos row < bytes.length
  ids : chunk.ids.Nodup

/-! ## Reading a chunk -/

theorem nulFree_takeWhile (bs : List UInt8) : 0 ∉ bs.takeWhile (· ≠ 0) := by
  intro h
  simpa using List.mem_takeWhile_imp h

theorem takeWhile_idem (bs : List UInt8) :
    (bs.takeWhile (· ≠ 0)).takeWhile (· ≠ 0) = bs.takeWhile (· ≠ 0) :=
  List.takeWhile_eq_self_iff.mpr (nonzero_of_nulFree (nulFree_takeWhile bs))

/-- The strings that are read for the rows of a table. -/
def stringsOf (buf : List UInt8) (stringsOffset : UInt32) (table : List (UInt32 × UInt32))
    (strings : Std.TreeMap UInt32 WideString) : Std.TreeMap UInt32 WideString :=
  table.foldl (fun strings row => strings.insert row.1
    (((buf.drop (stringsOffset + row.2 + 8).toNat).takeWhile (· ≠ 0)).map widen)) strings

theorem readStrings_eq (stringsOffset : UInt32) (table : List (UInt32 × UInt32))
    (strings : Std.TreeMap UInt32 WideString) (s : ByteBuffer) :
    ∃ s', readStrings stringsOffset table strings s
      = .ok (stringsOf s.buf stringsOffset table strings, s') := by
  induction table generalizing strings s with
  | nil => exact ⟨s, rfl⟩
  | cons row table ih => exact ih _ _

/-- The bytes of a row. -/
def rowBytes (row : UInt32 × UInt32) : List UInt8 :=
  leBytes 4 row.1.toNat ++ leBytes 4 row.2.toNat

theorem length_rowBytes (row : UInt32 × UInt32) : (rowBytes row).length = 8 := by
  rw [rowBytes, List.length_append, length_leBytes, length_leBytes]

/-- The round of the loop that reads the table. -/
theorem readRow_reads (row : UInt32 × UInt32) :
    Reads (do
      let id ← getInt
      let offset ← getInt
      return (id, offset)) (rowBytes row) row :=
  (getInt_reads row.1).bind ((getInt_reads row.2).map fun offset => (row.1, offset))

theorem setReadPos_eq (r : Nat) (s : ByteBuffer) :
    setReadPos r s = .ok ((), { s with rpos := r }) := rfl

theorem readLocalizationChunk_reads {s : ByteBuffer}
    {size count dataOffset stringsOffset : UInt32} {tag : ByteString} {rest tail : List UInt8}
    {table : List (UInt32 × UInt32)} (htag : 0 ∉ tag)
    (h : s.rest = leBytes 4 size.toNat ++ (leBytes 4 count.toNat ++ (leBytes 4 dataOffset.toNat ++
      (leBytes 4 stringsOffset.toNat ++ ((tag ++ [0]) ++ rest)))))
    (hcount : count.toNat = table.length) (hlt : table.length < 2 ^ 31)
    (htable : s.buf.drop (dataOffset + 8).toNat = table.flatMap rowBytes ++ tail) :
    ∃ s', readLocalizationChunk s = .ok (⟨size, count, dataOffset, stringsOffset, tag, table,
      stringsOf s.buf stringsOffset table {}⟩, s') := by
  rw [readLocalizationChunk, (getInt_reads size).bind_apply h]
  have h := ByteBuffer.rest_skip h
  rw [(getInt_reads count).bind_apply h]
  have h := ByteBuffer.rest_skip h
  rw [(getInt_reads dataOffset).bind_apply h]
  have h := ByteBuffer.rest_skip h
  rw [(getInt_reads stringsOffset).bind_apply h]
  have h := ByteBuffer.rest_skip h
  rw [(getNullTerminatedString_reads htag).bind_apply h, hcount, if_pos hlt]
  have htable : ({ s with rpos := (dataOffset + 8).toNat } : ByteBuffer).rest
      = table.flatMap rowBytes ++ tail := htable
  have hrows := repeatM_reads (F := s.buf) table fun row _ => readRow_reads row s.buf
  obtain ⟨s', hs'⟩ := readStrings_eq stringsOffset table {}
    (({ s with rpos := (dataOffset + 8).toNat } : ByteBuffer).skip (table.flatMap rowBytes).length)
  refine ⟨s', ?_⟩
  refine (BufM.bind_ok (setReadPos_eq _ _)).trans ?_
  refine (BufM.bind_ok (hrows { s with rpos := (dataOffset + 8).toNat } tail rfl htable)).trans ?_
  refine (BufM.bind_ok hs').trans ?_
  rfl

theorem getInt_ok {s s' : ByteBuffer} {v : UInt32} (h : getInt s = .ok (v, s')) :
    s'.buf = s.buf := by
  cases h
  rfl

theorem repeatM_ok {α : Type} {r : BufM α}
    (hr : ∀ s a s', r s = .ok (a, s') → s'.buf = s.buf) {n : Nat} {s s' : ByteBuffer}
    {xs : List α} (h : repeatM r n s = .ok (xs, s')) : xs.length = n ∧ s'.buf = s.buf := by
  induction n generalizing xs s with
  | zero =>
      cases h
      exact ⟨rfl, rfl⟩
  | succ n ih =>
      obtain ⟨a, s₁, h₁, h⟩ := BufM.bind_ok_iff.mp h
      obtain ⟨as, s₂, h₂, h⟩ := BufM.bind_ok_iff.mp h
      cases h
      obtain ⟨hlen, hbuf⟩ := ih h₂
      exact ⟨congrArg Nat.succ hlen, hbuf.trans (hr _ _ _ h₁)⟩

theorem readRow_ok {s s' : ByteBuffer} {row : UInt32 × UInt32}
    (h : (do
      let id ← getInt
      let offset ← getInt
      return (id, offset) : BufM (UInt32 × UInt32)) s = .ok (row, s')) : s'.buf = s.buf := by
  obtain ⟨id, s₁, h₁, h⟩ := BufM.bind_ok_iff.mp h
  obtain ⟨offset, s₂, h₂, h⟩ := BufM.bind_ok_iff.mp h
  cases h
  rw [getInt_ok h₂, getInt_ok h₁]

/-- What is known of a chunk that has been read. -/
theorem readLocalizationChunk_ok {s s' : ByteBuffer} {chunk : LocalizationChunk}
    (h : readLocalizationChunk s = .ok (chunk, s')) :
    chunk.table.length = chunk.count.toNat ∧ 0 ∉ chunk.tag ∧
      chunk.strings = stringsOf s.buf chunk.stringsOffset chunk.table {} := by
  obtain ⟨size, s₁, h₁, h⟩ := BufM.bind_ok_iff.mp h
  obtain ⟨count, s₂, h₂, h⟩ := BufM.bind_ok_iff.mp h
  obtain ⟨dataOffset, s₃, h₃, h⟩ := BufM.bind_ok_iff.mp h
  obtain ⟨stringsOffset, s₄, h₄, h⟩ := BufM.bind_ok_iff.mp h
  obtain ⟨tag, s₅, h₅, h⟩ := BufM.bind_ok_iff.mp h
  obtain ⟨⟨⟩, s₆, h₆, h⟩ := BufM.bind_ok_iff.mp h
  have hbuf : s₆.buf = s.buf := by
    rw [← getInt_ok h₁, ← getInt_ok h₂, ← getInt_ok h₃, ← getInt_ok h₄]
    cases h₅
    cases h₆
    rfl
  have htag : 0 ∉ tag := by
    cases h₅
    exact nulFree_takeWhile _
  by_cases hcount : count.toNat < 2 ^ 31
  · rw [if_pos hcount] at h
    obtain ⟨table, s₇, h₇, h⟩ := BufM.bind_ok_iff.mp h
    obtain ⟨strings, s₈, h₈, h⟩ := BufM.bind_ok_iff.mp h
    cases h
    obtain ⟨hlen, hbuf₇⟩ := repeatM_ok (fun _ _ _ => readRow_ok) h₇
    obtain ⟨_, h₈'⟩ := readStrings_eq stringsOffset table {} s₇
    obtain ⟨rfl, -⟩ := Prod.mk.inj (Except.ok.inj (h₈.symm.trans h₈'))
    exact ⟨hlen, htag, by rw [hbuf₇, hbuf]⟩
  · rw [if_neg hcount] at h
    cases h

/-- What is known of a chunk that is well formed. -/
theorem WellFormed.contents {bytes : List UInt8} {chunk : LocalizationChunk}
    (h : WellFormed bytes chunk) :
    chunk.table.length = chunk.count.toNat ∧ 0 ∉ chunk.tag ∧
      chunk.strings = stringsOf bytes chunk.stringsOffset chunk.table {} := by
  obtain ⟨inBuf, s, hmagic, hread⟩ := h.reads
  have hbuf : inBuf.buf = bytes := getInt_ok hmagic
  rw [← hbuf]
  exact readLocalizationChunk_ok hread

/-! ## Writing a chunk -/

/-- The offsets of strings that stand one behind the other, the first at `n`. -/
def offsetsFrom (g : UInt32 → List UInt8) : Nat → List UInt32 → List UInt32
  | _, [] => []
  | n, id :: ids => UInt32.ofNat n :: offsetsFrom g (n + (g id ++ [0]).length) ids

/-- The strings one behind the other. -/
def area (g : UInt32 → List UInt8) (ids : List UInt32) : List UInt8 :=
  ids.flatMap fun id => g id ++ [0]

/-- What is written of a string. -/
def written (strings : Std.TreeMap UInt32 WideString) (id : UInt32) : List UInt8 :=
  ((strings.getD id []).map UInt16.toUInt8).takeWhile (· ≠ 0)

theorem putStrings_puts (strings : Std.TreeMap UInt32 WideString) (n : Nat) (ids : List UInt32) :
    Puts n (∀ id ∈ ids, (written strings id).length < 2 ^ 31) (putStrings strings ids)
      (area (written strings) ids) (offsetsFrom (written strings) n ids) := by
  induction ids generalizing n with
  | nil => exact (Puts.pure n []).congr (by simp)
  | cons id ids ih =>
      have hput : Puts n ((written strings id).length < 2 ^ 31)
          (putNullTerminatedWideString (strings.getD id [])) (written strings id ++ [0]) () :=
        putNullTerminatedString_puts n _
      have hrest := (ih (n + (written strings id ++ [0]).length)).map (UInt32.ofNat n :: ·)
      exact ((getWritePos_puts n).bind_nil (hput.bind hrest)).congr List.forall_mem_cons.symm

theorem padHeader_puts {n rounds : Nat} (hn : n ≤ 0x94) (h : 0x94 - n < rounds) :
    Puts n True (padHeader rounds) (List.replicate (0x94 - n) 0) () := by
  induction rounds generalizing n with
  | zero => omega
  | succ rounds ih =>
      refine (getWritePos_puts n).bind_nil ?_
      by_cases hlt : n < 0x8C + 8
      · have hnext := ih (n := n + 1) (by omega) (by omega)
        rw [if_pos hlt, show 0x94 - n = (0x94 - (n + 1)) + 1 by omega, List.replicate_succ]
        exact ((put_writes 0).puts n).then hnext
      · rw [if_neg hlt, show 0x94 - n = 0 by omega]
        exact Puts.pure n ()

/-- What stands behind the size of a chunk. -/
def chunkBody (tag : ByteString) (table : List (UInt32 × UInt32)) (strings : List UInt8) :
    List UInt8 :=
  leBytes 4 (UInt32.ofNat table.length).toNat ++ (leBytes 4 (0x8C : UInt32).toNat ++
    (leBytes 4 (0x8C + 8 * UInt32.ofNat table.length).toNat ++ ((tag ++ [0]) ++
      (List.replicate (0x7F - tag.length) 0 ++ (table.flatMap rowBytes ++ strings)))))

/-- A chunk, given its size. -/
def chunkBytes (size : UInt32) (tag : ByteString) (table : List (UInt32 × UInt32))
    (strings : List UInt8) : List UInt8 :=
  leBytes 4 (0x00039000 : UInt32).toNat ++
    (leBytes 4 size.toNat ++ chunkBody tag table strings)

theorem putRow_writes (row : UInt32 × UInt32) : Writes (putRow row) (rowBytes row) :=
  (putInt_writes row.1).bind (putInt_writes row.2)

theorem putBuffer_writes {src : ByteBuffer} (h : src.buf.length < 2 ^ 32) :
    Writes (putBuffer src) src.buf := by
  have hsize : src.buf.take src.size = src.buf :=
    List.take_of_length_le (by rw [ByteBuffer.size, Nat.mod_eq_of_lt h])
  rw [putBuffer, hsize]
  exact forM_put_writes src.buf

theorem writeRows_puts {tag : ByteString} {src : ByteBuffer} (htag : 0 ∉ tag)
    (hlen : tag.length < 0x80) (hsrc : src.buf.length < 2 ^ 32) (table : List (UInt32 × UInt32)) :
    Puts 0 True (writeRows tag table src) (chunkBytes 0xdeadbeef tag table src.buf) () := by
  rw [writeRows, chunkBytes, chunkBody]
  refine ((putInt_writes _).puts _).then ?_
  refine ((putInt_writes _).puts _).then ?_
  refine ((putInt_writes _).puts _).then ?_
  refine ((putInt_writes _).puts _).then ?_
  refine ((putInt_writes _).puts _).then ?_
  refine ((putNullTerminatedString_writes htag (by omega)).puts _).then ?_
  simp only [length_leBytes, List.length_append, List.length_singleton]
  have hpad : Puts (0 + 4 + 4 + 4 + 4 + 4 + (tag.length + 1)) True (padHeader (0x8C + 8 + 1)) _ () :=
    padHeader_puts (by omega) (by omega)
  rw [show 0x94 - (0 + 4 + 4 + 4 + 4 + 4 + (tag.length + 1)) = 0x7F - tag.length by omega] at hpad
  refine hpad.then ?_
  refine ((forM_writes fun row _ => putRow_writes row).puts _).then ?_
  exact (putBuffer_writes hsrc).puts _

theorem length_chunkBytes (size : UInt32) (tag : ByteString) (table : List (UInt32 × UInt32))
    (strings : List UInt8) :
    (chunkBytes size tag table strings).length = 8 + (chunkBody tag table strings).length := by
  rw [chunkBytes, List.length_append, List.length_append, length_leBytes, length_leBytes]
  omega

/-- Writing goes through exactly if the positions suffice. The size is known at the end. -/
theorem writeLocalizationChunk_eq_ok_iff {tag : ByteString} {src : ByteBuffer} (htag : 0 ∉ tag)
    (hlen : tag.length < 0x80) (hsrc : src.buf.length < 2 ^ 32) (table : List (UInt32 × UInt32))
    (out : List UInt8) :
    (∃ s, writeLocalizationChunk tag table src {} = .ok ((), s) ∧ s.buf = out)
      ↔ 8 + (chunkBody tag table src.buf).length < 2 ^ 32 ∧
        out = chunkBytes (UInt32.ofNat (chunkBody tag table src.buf).length) tag table src.buf := by
  have hputs := writeRows_puts htag hlen hsrc table
  have hwritten := length_chunkBytes 0xdeadbeef tag table src.buf
  by_cases hfit : 8 + (chunkBody tag table src.buf).length < 2 ^ 32
  · obtain ⟨s₁, e₁, hbuf, hw⟩ := hputs.fits {} rfl rfl trivial (by omega)
    rw [hwritten, Nat.zero_add] at hw
    have hbuf := hbuf.trans (List.nil_append _)
    rw [chunkBytes] at hbuf
    have hsize : UInt32.ofNat s₁.wpos - 8 = UInt32.ofNat (chunkBody tag table src.buf).length := by
      rw [hw, UInt32.ofNat_add, UInt32.add_comm]
      exact UInt32.add_sub_cancel _ _
    have hlen₁ : s₁.buf.length < 2 ^ 32 := by
      rw [hbuf, List.length_append, List.length_append, length_leBytes, length_leBytes]
      omega
    have hover := append_overwrites (leBytes 4 (UInt32.ofNat s₁.wpos - 8).toNat)
      (s := { s₁ with wpos := 4 % 2 ^ 32 }) hbuf (length_leBytes 4 _).symm
      ((length_leBytes 4 _).trans (length_leBytes 4 _).symm) hlen₁
    have hwrite : writeLocalizationChunk tag table src {} = _ := (BufM.bind_ok e₁).trans hover
    rw [hwrite, hsize]
    constructor
    · rintro ⟨s, hs, rfl⟩
      cases hs
      exact ⟨hfit, rfl⟩
    · rintro ⟨-, rfl⟩
      exact ⟨_, rfl, rfl⟩
  · refine iff_of_false ?_ fun h => hfit h.1
    rintro ⟨s, hs, -⟩
    obtain ⟨⟨⟩, s₁, h₁, -⟩ := BufM.bind_ok_iff.mp hs
    obtain ⟨-, hlt⟩ := hputs.only {} _ rfl rfl (by decide) h₁
    omega

/-! ## The bytes that are answered -/

/-- The chunk of these strings. -/
def layOut (tag : ByteString) (g : UInt32 → List UInt8) (ids : List UInt32) : List UInt8 :=
  chunkBytes (UInt32.ofNat (chunkBody tag (ids.zip (offsetsFrom g 0 ids)) (area g ids)).length)
    tag (ids.zip (offsetsFrom g 0 ids)) (area g ids)

section

variable {g : UInt32 → List UInt8}

@[simp] theorem length_offsetsFrom (n : Nat) (ids : List UInt32) :
    (offsetsFrom g n ids).length = ids.length := by
  induction ids generalizing n with
  | nil => rfl
  | cons id ids ih => rw [offsetsFrom, List.length_cons, ih, List.length_cons]

theorem length_table (n : Nat) (ids : List UInt32) :
    (ids.zip (offsetsFrom g n ids)).length = ids.length := by
  rw [List.length_zip, length_offsetsFrom, Nat.min_self]

theorem length_chunkBody {tag : ByteString} (h : tag.length < 0x80)
    (table : List (UInt32 × UInt32)) (strings : List UInt8) :
    (chunkBody tag table strings).length = 0x8C + (8 * table.length + strings.length) := by
  simp only [chunkBody, List.length_append, length_leBytes, List.length_singleton,
    List.length_replicate, length_flatMap_const length_rowBytes]
  omega

theorem length_layOut {tag : ByteString} (h : tag.length < 0x80) (ids : List UInt32) :
    (layOut tag g ids).length = 0x94 + (8 * ids.length + (area g ids).length) := by
  rw [layOut, length_chunkBytes, length_chunkBody h, length_table]
  omega

end

/-- The last steps of `ModifyChunk`. -/
theorem writeMerged_eq_ok_iff {tag : ByteString} (htag : 0 ∉ tag) (hlen : tag.length < 0x80)
    (strings : Std.TreeMap UInt32 WideString) (ids : List UInt32) {out : List UInt8} :
    (do
      let (offsets, stringBuf) ← (putStrings strings ids).run {}
      let ((), buf) ← (writeLocalizationChunk tag (ids.zip offsets) stringBuf).run {}
      return buf.buf : Except Fault (List UInt8)) = .ok out
      ↔ (∀ id ∈ ids, (written strings id).length < 2 ^ 31) ∧
        (layOut tag (written strings) ids).length < 2 ^ 32 ∧
        out = layOut tag (written strings) ids := by
  have hputs := putStrings_puts strings 0 ids
  have hlayOut := length_layOut (g := written strings) hlen ids
  by_cases hfit : (∀ id ∈ ids, (written strings id).length < 2 ^ 31) ∧
      (area (written strings) ids).length < 2 ^ 32
  · obtain ⟨hshort, harea⟩ := hfit
    obtain ⟨src, e, hbuf, -⟩ := hputs.fits {} rfl rfl hshort (by omega)
    have hbuf := hbuf.trans (List.nil_append _)
    have hsrc : src.buf.length < 2 ^ 32 := by rwa [hbuf]
    have hwrite := writeLocalizationChunk_eq_ok_iff htag hlen hsrc
      (ids.zip (offsetsFrom (written strings) 0 ids)) out
    rw [hbuf] at hwrite
    rw [StateT.run, e, except_ok_bind, and_iff_right hshort, layOut, length_chunkBytes, ← hwrite]
    dsimp only
    constructor
    · intro h
      obtain ⟨⟨⟨⟩, s⟩, hs, h⟩ := bind_eq_ok h
      exact ⟨s, hs, Except.ok.inj h⟩
    · rintro ⟨s, hs, rfl⟩
      rw [StateT.run, hs]
      rfl
  · refine iff_of_false ?_ ?_
    · intro h
      obtain ⟨r, hr, -⟩ := bind_eq_ok h
      obtain ⟨hshort, hlt⟩ := hputs.only {} r rfl rfl (by decide) hr
      exact hfit ⟨hshort, by omega⟩
    · rintro ⟨hshort, hlt, -⟩
      exact hfit ⟨hshort, by omega⟩

/-! ## Reading it back -/

/-- What is read of the chunk of these strings. -/
def layOutChunk (tag : ByteString) (g : UInt32 → List UInt8) (ids : List UInt32) :
    LocalizationChunk where
  size := UInt32.ofNat (chunkBody tag (ids.zip (offsetsFrom g 0 ids)) (area g ids)).length
  count := UInt32.ofNat ids.length
  dataOffset := 0x8C
  stringsOffset := 0x8C + 8 * UInt32.ofNat ids.length
  tag := tag
  table := ids.zip (offsetsFrom g 0 ids)
  strings := stringsOf (layOut tag g ids) (0x8C + 8 * UInt32.ofNat ids.length)
    (ids.zip (offsetsFrom g 0 ids)) {}

section

variable {tag : ByteString} {g : UInt32 → List UInt8} {ids : List UInt32}

/-- The offset of a row leads to its string. -/
theorem area_of_mem {n : Nat} {row : UInt32 × UInt32}
    (h : row ∈ ids.zip (offsetsFrom g n ids)) :
    ∃ pre post, area g ids = pre ++ (g row.1 ++ 0 :: post) ∧
      row.2 = UInt32.ofNat (n + pre.length) := by
  induction ids generalizing n with
  | nil => cases h
  | cons id ids ih =>
      rw [offsetsFrom, List.zip_cons_cons] at h
      rw [area, List.flatMap_cons, ← area]
      obtain rfl | h := List.mem_cons.mp h
      · exact ⟨[], area g ids, by simp, rfl⟩
      · obtain ⟨pre, post, harea, hoff⟩ := ih h
        refine ⟨(g id ++ [0]) ++ pre, post, ?_, ?_⟩
        · rw [harea, List.append_assoc (g id ++ [0])]
        · rw [hoff, Nat.add_assoc, ← List.length_append]

/-- The table is behind 0x94 bytes. -/
theorem layOut_eq (hlen : tag.length < 0x80) (g : UInt32 → List UInt8) (ids : List UInt32) :
    ∃ front, front.length = 0x94 ∧ layOut tag g ids
      = front ++ ((ids.zip (offsetsFrom g 0 ids)).flatMap rowBytes ++ area g ids) := by
  refine ⟨leBytes 4 (0x00039000 : UInt32).toNat ++
    (leBytes 4 (layOutChunk tag g ids).size.toNat ++
      (leBytes 4 (UInt32.ofNat (ids.zip (offsetsFrom g 0 ids)).length).toNat ++
        (leBytes 4 (0x8C : UInt32).toNat ++
          (leBytes 4 (0x8C + 8 * UInt32.ofNat (ids.zip (offsetsFrom g 0 ids)).length).toNat ++
            ((tag ++ [0]) ++ List.replicate (0x7F - tag.length) 0))))), ?_, ?_⟩
  · simp only [List.length_append, length_leBytes, List.length_singleton, List.length_replicate]
    omega
  · simp only [layOut, chunkBytes, chunkBody, layOutChunk, List.append_assoc]

theorem count_layOutChunk (h : (layOut tag g ids).length < 2 ^ 32) (hlen : tag.length < 0x80) :
    (layOutChunk tag g ids).count.toNat = ids.length := by
  rw [length_layOut hlen] at h
  have hlt : ids.length < 2 ^ 32 := by omega
  exact UInt32.toNat_ofNat_of_lt' hlt

theorem stringsOffset_layOutChunk (h : (layOut tag g ids).length < 2 ^ 32)
    (hlen : tag.length < 0x80) :
    (layOutChunk tag g ids).stringsOffset.toNat = 0x8C + 8 * ids.length := by
  have hcount := count_layOutChunk h hlen
  rw [length_layOut hlen] at h
  rw [layOutChunk] at hcount ⊢
  dsimp only at hcount ⊢
  rw [UInt32.toNat_add, UInt32.toNat_mul, hcount]
  show (0x8C + 8 * ids.length % 2 ^ 32) % 2 ^ 32 = _
  omega

/-- A string is where its row says. -/
theorem drop_stringPos (h : (layOut tag g ids).length < 2 ^ 32) (hlen : tag.length < 0x80)
    {row : UInt32 × UInt32} (hrow : row ∈ (layOutChunk tag g ids).table) :
    ∃ post, (layOut tag g ids).drop ((layOutChunk tag g ids).stringPos row)
      = g row.1 ++ 0 :: post := by
  obtain ⟨front, hfront, hout⟩ := layOut_eq hlen g ids
  obtain ⟨pre, post, harea, hoff⟩ := area_of_mem hrow
  have hfit := h
  rw [length_layOut hlen, harea, List.length_append] at hfit
  have hsplit : layOut tag g ids
      = (front ++ ((ids.zip (offsetsFrom g 0 ids)).flatMap rowBytes ++ pre))
        ++ (g row.1 ++ 0 :: post) := by
    rw [hout, harea]
    simp only [List.append_assoc]
  have hpos : (layOutChunk tag g ids).stringPos row
      = (front ++ ((ids.zip (offsetsFrom g 0 ids)).flatMap rowBytes ++ pre)).length := by
    have hlt : 0 + pre.length < 2 ^ 32 := by omega
    rw [LocalizationChunk.stringPos, stringsOffset_layOutChunk h hlen, hoff,
      UInt32.toNat_ofNat_of_lt' hlt, List.length_append, hfront, List.length_append,
      length_flatMap_const length_rowBytes, length_table]
    omega
  exact ⟨post, by rw [hpos, hsplit, List.drop_left]⟩

theorem stringBytes_layOutChunk (h : (layOut tag g ids).length < 2 ^ 32)
    (hlen : tag.length < 0x80) (hg : ∀ id, 0 ∉ g id) {row : UInt32 × UInt32}
    (hrow : row ∈ (layOutChunk tag g ids).table) :
    (layOutChunk tag g ids).stringBytes (layOut tag g ids) row = g row.1 := by
  obtain ⟨post, hdrop⟩ := drop_stringPos h hlen hrow
  rw [LocalizationChunk.stringBytes, hdrop,
    List.takeWhile_append_of_pos (nonzero_of_nulFree (hg row.1))]
  simp

theorem layOut_reads (h : (layOut tag g ids).length < 2 ^ 32) (hlen : tag.length < 0x80)
    (htag : 0 ∉ tag) :
    ∃ inBuf s, getInt.run (.ofBytes (layOut tag g ids)) = .ok (0x00039000, inBuf) ∧
      readLocalizationChunk.run inBuf = .ok (layOutChunk tag g ids, s) := by
  have hbytes : layOut tag g ids = leBytes 4 (0x00039000 : UInt32).toNat ++
      (leBytes 4 (layOutChunk tag g ids).size.toNat ++
        chunkBody tag (layOutChunk tag g ids).table (area g ids)) := rfl
  have hrest := (ByteBuffer.rest_ofBytes (layOut tag g ids)).trans hbytes
  have hmagic := getInt_reads 0x00039000 _ _ _ rfl hrest
  have hbody := ByteBuffer.rest_skip hrest
  have hcount := count_layOutChunk h hlen
  have htable : (layOutChunk tag g ids).table.length = ids.length := length_table 0 ids
  obtain ⟨front, hfront, hout⟩ := layOut_eq hlen g ids
  have hdrop : (layOut tag g ids).drop ((0x8C : UInt32) + 8).toNat
      = (layOutChunk tag g ids).table.flatMap rowBytes ++ area g ids := by
    have hpos : ((0x8C : UInt32) + 8).toNat = front.length := hfront.symm
    rw [hpos, hout, List.drop_left]
    rfl
  rw [length_layOut hlen] at h
  rw [chunkBody, htable] at hbody
  obtain ⟨s, hread⟩ := readLocalizationChunk_reads htag hbody (hcount.trans htable.symm)
    (by omega) hdrop
  exact ⟨_, s, hmagic, hread⟩

theorem ids_layOutChunk : (layOutChunk tag g ids).ids = ids := by
  rw [LocalizationChunk.ids, layOutChunk, List.map_fst_zip (by simp)]

theorem layOutChunk_wellFormed (h : (layOut tag g ids).length < 2 ^ 32)
    (hlen : tag.length < 0x80) (htag : 0 ∉ tag) (hids : ids.Nodup) :
    WellFormed (layOut tag g ids) (layOutChunk tag g ids) where
  reads := layOut_reads h hlen htag
  size := h
  tag := by
    show 0x14 + tag.length < 0x94
    omega
  tagEnds := by
    rw [length_layOut hlen]
    show 0x14 + tag.length < _
    omega
  table := by
    rw [length_layOut hlen, layOutChunk, length_table]
    show 0x8C + 8 + 8 * ids.length ≤ _
    omega
  strings row hrow := by
    obtain ⟨post, hdrop⟩ := drop_stringPos h hlen hrow
    refine Nat.not_le.mp fun hle => ?_
    rw [List.drop_eq_nil_of_le hle] at hdrop
    simp at hdrop
  ids := by rwa [ids_layOutChunk]

theorem length_area : 8 * ids.length + (area g ids).length
    = (ids.map fun id => 9 + (g id).length).sum := by
  induction ids with
  | nil => rfl
  | cons id ids ih =>
      rw [area, List.flatMap_cons, ← area, List.map_cons, List.sum_cons, ← ih, List.length_cons,
        List.length_append, List.length_append, List.length_singleton]
      omega

theorem size_layOutChunk
    (h : (layOut tag g ids).length < 2 ^ 32) :
    (layOutChunk tag g ids).size.toNat + 8 = (layOut tag g ids).length := by
  rw [layOut, length_chunkBytes] at h ⊢
  rw [layOutChunk, UInt32.toNat_ofNat_of_lt' (Nat.lt_of_le_of_lt (Nat.le_add_left _ _) h),
    Nat.add_comm]

end

end Kyber.ModLoader
