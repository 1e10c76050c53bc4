import Kyber.ModLoader.BundleManifest
import Kyber.Proofs.DbObjectCodec
import Kyber.Proofs.Types

/-!
# Bundle manifests survive `Save` and `Load`

As for the trees, the file is described once, as a list of bytes, and both
directions are compared with it. What is new is that the file points into
itself.

An entry stores where its name stands in the string table. The table grows while
the entries are written and each name is looked up by hash, so the argument runs
on an invariant of the table: whatever offset is recorded for a hash, a name with
that hash stands there, followed by its terminator (`StringTable.Valid`). With
no two names sharing a hash that name is the one looked up. Later names are only
appended, so it still stands there when the file is finished.

The header stores where the table and the meta blob stand. Those positions are
what `getWritePos` answered while the file was written, and the last step of
`Save` overwrites the zeros put there first; nothing else of the file moves.
-/

namespace Kyber.ModLoader

open Kyber.Lib

/-! ## Big-endian fields -/

def be32 (v : UInt32) : List UInt8 := leBytes 4 (swapEndiannessU32 v).toNat

def be64 (v : UInt64) : List UInt8 := leBytes 8 (swapEndiannessU64 v).toNat

@[simp] theorem length_be32 (v : UInt32) : (be32 v).length = 4 := length_leBytes 4 _

@[simp] theorem length_be64 (v : UInt64) : (be64 v).length = 8 := length_leBytes 8 _

theorem be32_ne_nil (v : UInt32) : be32 v ≠ [] := by
  rw [← List.length_pos_iff, length_be32]
  decide

theorem readU32_reads (v : UInt32) : Reads readU32 (be32 v) v := by
  have h := (readUnsafe_reads (be32_ne_nil v)).map
    fun bs => swapEndiannessU32 (UInt32.ofNat (leNat bs))
  rw [length_be32, be32, leNat_leBytes (by have := (swapEndiannessU32 v).toNat_lt; omega),
    UInt32.ofNat_toNat, swapEndiannessU32_swap] at h
  exact h

theorem readU64_reads (v : UInt64) : Reads readU64 (be64 v) v := by
  have hne : be64 v ≠ [] := by
    rw [← List.length_pos_iff, length_be64]
    decide
  have h := (readUnsafe_reads hne).map fun bs => swapEndiannessU64 (UInt64.ofNat (leNat bs))
  rw [length_be64, be64, leNat_leBytes (by have := (swapEndiannessU64 v).toNat_lt; omega),
    UInt64.ofNat_toNat, swapEndiannessU64_swap] at h
  exact h

/-! ## The string table -/

/-- Strings as they stand in a table. -/
def tableBytes (strings : List ByteString) : List UInt8 := strings.flatMap (· ++ [0])

/-- The table's bytes in the file. -/
def StringTable.bytes (t : StringTable) : List UInt8 := tableBytes t.strings

/-- `name` and its terminator stand at `offset` of the table `T`. -/
def Locates (T : List UInt8) (offset : UInt32) (name : ByteString) : Prop :=
  ∃ pre post, T = pre ++ (name ++ [0]) ++ post ∧ offset = UInt32.ofNat pre.length

theorem Locates.mono {T T' : List UInt8} {offset : UInt32} {name : ByteString}
    (h : Locates T offset name) (hT : T <+: T') : Locates T' offset name := by
  obtain ⟨pre, post, rfl, ho⟩ := h
  obtain ⟨more, rfl⟩ := hT
  exact ⟨pre, post ++ more, by simp, ho⟩

/-- Every recorded offset leads to a name of `names` with the hash it is
recorded for. -/
structure StringTable.Valid (names : List ByteString) (t : StringTable) : Prop where
  nulFree : ∀ str ∈ t.strings, (0 : UInt8) ∉ str
  nameOffset_eq : t.nameOffset = UInt32.ofNat t.bytes.length
  located : ∀ hash offset, t.stringOffsets[hash]? = some offset →
    ∃ name ∈ names, hashQuick name = hash ∧ Locates t.bytes offset name

theorem StringTable.valid_empty (names : List ByteString) : StringTable.Valid names {} := by
  refine ⟨by simp, rfl, ?_⟩
  intro hash offset h
  simp at h

section Interning

variable {names : List ByteString}
  (hinj : ∀ a ∈ names, ∀ b ∈ names, hashQuick a = hashQuick b → a = b)
  (hnul : ∀ a ∈ names, (0 : UInt8) ∉ a)

include hinj hnul

theorem StringTable.intern_spec {t : StringTable} (ht : t.Valid names) {name : ByteString}
    (hname : name ∈ names) :
    (t.intern name).2.Valid names ∧ t.bytes <+: (t.intern name).2.bytes ∧
      Locates (t.intern name).2.bytes (t.intern name).1 name := by
  unfold StringTable.intern
  simp only []
  split
  · next offset hoff =>
      -- The hash is known: injectivity makes the stored name this one.
      obtain ⟨other, hother, hhash, hloc⟩ := ht.located _ _ hoff
      have := hinj other hother name hname hhash
      subst this
      exact ⟨ht, List.prefix_rfl, hloc⟩
  · have hc : cStr name = name :=
      List.takeWhile_eq_self_iff.mpr (nonzero_of_nulFree (hnul name hname))
    have hbytes : ∀ off map, (StringTable.mk off map (t.strings ++ [cStr name])).bytes
        = t.bytes ++ (name ++ [0]) := by
      intro off map
      simp [StringTable.bytes, tableBytes, hc]
    have hnew : Locates (t.bytes ++ (name ++ [0])) t.nameOffset name :=
      ⟨t.bytes, [], by simp, ht.nameOffset_eq⟩
    refine ⟨⟨?_, ?_, ?_⟩, ?_, ?_⟩
    · intro str hstr
      rcases List.mem_append.mp hstr with hstr | hstr
      · exact ht.nulFree str hstr
      · rw [List.mem_singleton.mp hstr, hc]
        exact hnul name hname
    · rw [hbytes, ht.nameOffset_eq, List.length_append, UInt32.ofNat_add]
      simp
    · intro hash offset h
      rw [hbytes]
      rw [Std.TreeMap.getElem?_insert] at h
      split at h
      · next heq =>
          obtain rfl := Std.LawfulEqCmp.eq_of_compare heq
          cases h
          exact ⟨name, hname, rfl, hnew⟩
      · obtain ⟨other, hother, hhash, hloc⟩ := ht.located _ _ h
        exact ⟨other, hother, hhash, hloc.mono (List.prefix_append _ _)⟩
    · rw [hbytes]
      exact List.prefix_append _ _
    · rw [hbytes]
      exact hnew

end Interning

/-! ## The entries with names -/

/-- The rows of the named entries, and the table they leave. -/
def namesBytes : List EbxEntry → StringTable → List UInt8 × StringTable
  | [], t => ([], t)
  | entry :: entries, t =>
      let (offset, t) := t.intern entry.name
      let (rows, t) := namesBytes entries t
      (be32 offset ++ (be32 entry.originalSize ++ rows), t)

theorem writeNames_appends (entries : List EbxEntry) (t : StringTable) (L : List UInt8) :
    Appends L (writeNames entries t) (namesBytes entries t).1 (namesBytes entries t).2 := by
  induction entries generalizing t L with
  | nil => exact Appends.pure L t
  | cons entry entries ih =>
      rw [writeNames, namesBytes]
      exact (putInt_emits _ _).bind ((putInt_emits _ _).bind (ih _ _))

/-- A look at another place of the buffer: the cursor comes back. -/
theorem readAt_reads {F pre post : List UInt8} {name : ByteString} (originalSize : UInt32)
    {pos : Nat} (hF : F = pre ++ (name ++ [0]) ++ post) (hpos : pos = pre.length)
    (hnul : 0 ∉ name) :
    ReadsIn F (do
      let currentPos ← getReadPos
      setReadPos pos
      let name ← getNullTerminatedString
      setReadPos currentPos
      return ({ name, originalSize } : EbxEntry)) [] { name, originalSize } := by
  intro s tail hs _
  have hat : ({ s with rpos := pos } : ByteBuffer).rest = (name ++ [0]) ++ post := by
    simp [ByteBuffer.rest, hs, hF, hpos]
  have hread := getNullTerminatedString_reads hnul F { s with rpos := pos } _ hs hat
  show (getNullTerminatedString { s with rpos := pos } >>= fun p =>
    (Except.ok (({ name := p.1, originalSize } : EbxEntry), { p.2 with rpos := s.rpos }) :
      Except Fault (EbxEntry × ByteBuffer))) = _
  rw [hread]
  rfl

/-- `F` has the string table `T` at `stringsOffset`. -/
structure TableAt (F T : List UInt8) (stringsOffset : UInt32) : Prop where
  split : ∃ front back, F = front ++ T ++ back ∧ stringsOffset = UInt32.ofNat front.length
  fits : F.length < 2 ^ 32

theorem readName_reads {F T : List UInt8} {stringsOffset offset : UInt32} {entry : EbxEntry}
    (hF : TableAt F T stringsOffset) (hloc : Locates T offset entry.name)
    (hnul : 0 ∉ entry.name) :
    ReadsIn F (readName stringsOffset) (be32 offset ++ be32 entry.originalSize) entry := by
  obtain ⟨front, back, rfl, rfl⟩ := hF.split
  obtain ⟨pre, post, rfl, rfl⟩ := hloc
  have hfits := hF.fits
  simp only [List.length_append] at hfits
  have hpos : (UInt32.ofNat front.length + UInt32.ofNat pre.length).toNat
      = (front ++ pre).length := by
    rw [UInt32.toNat_add, UInt32.toNat_ofNat', UInt32.toNat_ofNat', List.length_append]
    omega
  have hsplit : front ++ (pre ++ (entry.name ++ [0]) ++ post) ++ back
      = (front ++ pre) ++ (entry.name ++ [0]) ++ (post ++ back) := by simp
  have hname := readAt_reads entry.originalSize hsplit hpos hnul
  rw [← List.append_nil (be32 entry.originalSize)]
  exact (readU32_reads (UInt32.ofNat pre.length) _).bind
    ((readU32_reads entry.originalSize _).bind hname)

section Interning

variable {names : List ByteString}
  (hinj : ∀ a ∈ names, ∀ b ∈ names, hashQuick a = hashQuick b → a = b)
  (hnul : ∀ a ∈ names, (0 : UInt8) ∉ a)

include hinj hnul

/-- The rows lead back to the entries in any file with the finished table, which
may have grown since. -/
theorem namesBytes_spec (entries : List EbxEntry) {t : StringTable} (ht : t.Valid names)
    (hmem : ∀ entry ∈ entries, entry.name ∈ names) :
    (namesBytes entries t).2.Valid names ∧ t.bytes <+: (namesBytes entries t).2.bytes ∧
      ∀ F T stringsOffset, TableAt F T stringsOffset → (namesBytes entries t).2.bytes <+: T →
        ReadsIn F (repeatM (readName stringsOffset) entries.length) (namesBytes entries t).1
          entries := by
  induction entries generalizing t with
  | nil => exact ⟨ht, List.prefix_rfl, fun F _ _ _ _ => ReadsIn.pure F []⟩
  | cons entry entries ih =>
      have hname := hmem entry (by simp)
      obtain ⟨hv, hp, hloc⟩ := StringTable.intern_spec hinj hnul ht hname
      obtain ⟨hv', hp', hread⟩ := ih hv fun e he => hmem e (by simp [he])
      refine ⟨hv', hp.trans hp', ?_⟩
      intro F T stringsOffset hF hT
      have hrow := readName_reads hF (hloc.mono (hp'.trans hT)) (hnul _ hname)
      show ReadsIn F _ (be32 _ ++ (be32 _ ++ _)) _
      rw [← List.append_assoc]
      exact hrow.bind ((hread F T stringsOffset hF hT).map fun es => entry :: es)

end Interning

/-! ## The rest of the file -/

/-- A gap of unwritten bytes: the cursor moves, the vector does not. -/
theorem skipSha1s_gap (n : Nat) {s : ByteBuffer} {L : List UInt8} (hs : s.Holds L)
    (hlen : L.length + 20 * n < 2 ^ 32) :
    ∃ s', (List.range n).forM (fun _ => skipSha1) s = .ok ((), s') ∧ s'.buf = s.buf ∧
      s'.Holds (L ++ List.replicate (20 * n) 0) := by
  have hrun : ∀ (xs : List Nat) (s : ByteBuffer), s.wpos + 20 * xs.length < 2 ^ 32 →
      xs.forM (fun _ => skipSha1) s
        = .ok ((), { s with wpos := s.wpos + 20 * xs.length }) := by
    intro xs
    induction xs with
    | nil => intro s _; rfl
    | cons x xs ih =>
        intro s h
        rw [List.length_cons] at h
        have hmod : (s.wpos + 20) % 2 ^ 32 = s.wpos + 20 := Nat.mod_eq_of_lt (by omega)
        show xs.forM (fun _ => skipSha1) { s with wpos := (s.wpos + 20) % 2 ^ 32 } = _
        rw [hmod, ih _ (by show s.wpos + 20 + _ < _; omega), List.length_cons]
        congr 3
        show s.wpos + 20 + 20 * xs.length = _
        omega
  have hw := hs.wpos_eq
  have hle := hs.length_le
  refine ⟨_, hrun (List.range n) s (by rw [List.length_range]; omega), rfl, ?_, ?_⟩
  · have hL := hs.content
    rw [List.length_range]
    show s.buf ++ List.replicate (s.wpos + 20 * n - s.buf.length) 0 = _
    rw [← hL, List.append_assoc, List.replicate_append_replicate]
    congr 2
    omega
  · rw [List.length_range, List.length_append, List.length_replicate]
    show s.wpos + 20 * n = _
    omega

def offsetsBytes (stringsOffset metaOffset metaSize : UInt32) : List UInt8 :=
  be32 stringsOffset ++ (be32 metaOffset ++ be32 metaSize)

theorem writeOffsets_emits (a b c : UInt32) :
    Emits (BundleManifest.writeOffsets a b c) (offsetsBytes a b c) :=
  (putInt_emits _).bind ((putInt_emits _).bind (putInt_emits _))

/-- The second time the offsets are written, over the zeros of the first. -/
theorem writeOffsets_overwrites (a b c : UInt32) :
    Overwrites (BundleManifest.writeOffsets a b c) (offsetsBytes a b c) :=
  (Overwrites.append _).bind ((Overwrites.append _).bind (Overwrites.append _))

/-- The zeros that fill the last row of sixteen. -/
def padding (n : Nat) : List UInt8 := List.replicate ((16 - n % 16) % 16) 0

theorem padTo16_appends (L : List UInt8) : Appends L (padRounds 16 16) (padding L.length) () :=
  padRounds_appends (by decide) 16 (Nat.mod_lt _ (by decide))

/-! ## The whole file -/

namespace BundleManifest

def names (m : BundleManifest) : List ByteString :=
  m.ebxEntries.map EbxEntry.name ++ m.resEntries.map fun e => e.name

def countsBytes (m : BundleManifest) : List UInt8 :=
  be32 0x9D798ED5 ++ (be32 m.totalCount ++ (be32 (UInt32.ofNat m.ebxEntries.length) ++
    (be32 (UInt32.ofNat m.resEntries.length) ++ be32 (UInt32.ofNat m.chunkEntries.length))))

def sha1Gap (m : BundleManifest) : List UInt8 := List.replicate (20 * m.totalCount.toNat) 0

def ebxRows (m : BundleManifest) : List UInt8 × StringTable := namesBytes m.ebxEntries {}

def resRows (m : BundleManifest) : List UInt8 × StringTable :=
  namesBytes (m.resEntries.map ResEntry.toEbxEntry) m.ebxRows.2

def chunkBytes (entry : ChunkEntry) : List UInt8 :=
  entry.guid.toFrostyBE ++ (be32 entry.logicalOffset ++ be32 entry.logicalSize)

def columnsBytes (m : BundleManifest) : List UInt8 :=
  (m.resEntries.flatMap fun e => be32 e.resType) ++
    ((m.resEntries.flatMap fun e => e.resMeta.toList) ++
      ((m.resEntries.flatMap fun e => be64 e.resRid) ++ m.chunkEntries.flatMap chunkBytes))

def metaBytes (m : BundleManifest) : List UInt8 :=
  match m.chunkMeta with
  | none => []
  | some obj => obj.bytes chunkMetaName

/-- What stands between the SHA-1s and the meta. -/
def entriesBytes (m : BundleManifest) : List UInt8 :=
  m.ebxRows.1 ++ (m.resRows.1 ++ m.columnsBytes)

def metaPos (m : BundleManifest) : Nat := 32 + m.sha1Gap.length + m.entriesBytes.length

def stringsPos (m : BundleManifest) : Nat := m.metaPos + m.metaBytes.length

/-- `metaOffset` and `metaSize`, both zero when there is no meta. -/
def metaSpan (m : BundleManifest) : UInt32 × UInt32 :=
  match m.chunkMeta with
  | none => (0, 0)
  | some obj => (UInt32.ofNat m.metaPos, UInt32.ofNat (obj.bytes chunkMetaName).length)

def stringsBytes (m : BundleManifest) : List UInt8 :=
  m.resRows.2.bytes ++ padding (m.stringsPos + m.resRows.2.bytes.length)

/-- The encoding of a manifest. -/
def bytes (m : BundleManifest) : List UInt8 :=
  m.countsBytes ++ (offsetsBytes (UInt32.ofNat m.stringsPos) m.metaSpan.1 m.metaSpan.2 ++
    (m.sha1Gap ++ (m.entriesBytes ++ (m.metaBytes ++ m.stringsBytes))))

@[simp] theorem length_countsBytes (m : BundleManifest) : m.countsBytes.length = 20 := rfl

end BundleManifest

@[simp] theorem length_offsetsBytes (a b c : UInt32) : (offsetsBytes a b c).length = 12 := rfl

namespace BundleManifest

theorem writeCounts_emits (m : BundleManifest) : Emits m.writeCounts m.countsBytes :=
  (putInt_emits _).bind ((putInt_emits _).bind ((putInt_emits _).bind
    ((putInt_emits _).bind (putInt_emits _))))

theorem putBytes_emits {bs : List UInt8} {n : Nat} (h : n = bs.length) :
    Emits (putBytes bs n) bs := by
  subst h
  exact append_emits bs

theorem writeColumns_emits (m : BundleManifest) : Emits m.writeColumns m.columnsBytes :=
  (forM_emits fun _ _ => putInt_emits _).bind
    ((forM_emits fun _ _ => putBytes_emits Vector.length_toList.symm).bind
      ((forM_emits fun _ _ => putLong_emits _).bind
        (forM_emits fun _ _ => (putBytes_emits rfl).bind
          ((putInt_emits _).bind (putInt_emits _)))))

/-- The chunk meta, if there is one, is a tree that can be stored. -/
def MetaStorable (m : BundleManifest) : Prop :=
  ∀ obj, m.chunkMeta = some obj → ∃ n, obj.Storable n n

theorem chunkMetaName_nulFree : (0 : UInt8) ∉ chunkMetaName := by decide

theorem metaBytes_storable {m : BundleManifest} (hm : m.MetaStorable) {obj : DbObject}
    (hobj : m.chunkMeta = some obj) (hlen : (obj.bytes chunkMetaName).length < 2 ^ 31 - 1) :
    obj.Storable (2 ^ 31 - 1) (2 ^ 31 - 1) := by
  obtain ⟨n, hs⟩ := hm obj hobj
  refine hs.of_length ?_
  rw [DbObject.bytes, List.length_append] at hlen
  omega

theorem writeMeta_appends {m : BundleManifest} (hm : m.MetaStorable)
    (hlen : m.metaBytes.length < 2 ^ 31 - 1) {L : List UInt8} (hL : L.length = m.metaPos) :
    Appends L m.writeMeta m.metaBytes m.metaSpan := by
  cases hobj : m.chunkMeta with
  | none =>
      rw [writeMeta, metaBytes, metaSpan, hobj]
      exact Appends.pure L _
  | some obj =>
      simp only [metaBytes, hobj] at hlen
      have hs := metaBytes_storable hm hobj hlen
      have hsave := DbObject.save_eq (by omega) hs chunkMetaName_nulFree (by decide) (by omega)
      rw [writeMeta, metaBytes, metaSpan, hobj]
      simp only
      rw [hsave, BufM.lift_ok_bind, ← hL]
      exact (getWritePos_appends L).bind_nil ((append_emits _ L).map _)

/-- The string table as it is written: its strings one after the other. -/
theorem strings_emits {names : List ByteString} {t : StringTable} (ht : t.Valid names)
    (hlen : t.bytes.length < 2 ^ 31) :
    Emits (t.strings.forM putNullTerminatedString) t.bytes := by
  refine forM_emits fun str hstr => putNullTerminatedString_emits (ht.nulFree str hstr) ?_
  obtain ⟨before, after, hsplit⟩ := List.append_of_mem hstr
  rw [StringTable.bytes, tableBytes, hsplit, List.flatMap_append, List.flatMap_cons] at hlen
  simp only [List.length_append] at hlen
  omega

/-! ### Counts and sizes -/

theorem length_namesBytes (entries : List EbxEntry) (t : StringTable) :
    (namesBytes entries t).1.length = 8 * entries.length := by
  induction entries generalizing t with
  | nil => rfl
  | cons entry entries ih =>
      rw [namesBytes]
      simp only [List.length_append, length_be32, ih, List.length_cons]
      omega

/-- Every entry has bytes between the SHA-1s and the meta. -/
theorem count_le_entriesBytes (m : BundleManifest) :
    m.ebxEntries.length + m.resEntries.length + m.chunkEntries.length
      ≤ m.entriesBytes.length := by
  have hc := length_flatMap_const (g := chunkBytes) (k := 24) (fun _ => rfl) m.chunkEntries
  rw [entriesBytes, List.length_append, List.length_append, ebxRows, resRows,
    length_namesBytes, length_namesBytes, List.length_map, columnsBytes, List.length_append,
    List.length_append, List.length_append, hc]
  omega

theorem sha1Gap_eq_nil {m : BundleManifest} (h : m.entriesBytes = []) : m.sha1Gap = [] := by
  have hc := m.count_le_entriesBytes
  rw [h, List.length_nil] at hc
  have h0 : m.ebxEntries.length + m.resEntries.length + m.chunkEntries.length = 0 := by omega
  rw [sha1Gap, totalCount, h0]
  rfl

section Codec

variable {m : BundleManifest} (hnul : ∀ a ∈ m.names, (0 : UInt8) ∉ a)
  (hinj : ∀ a ∈ m.names, ∀ b ∈ m.names, hashQuick a = hashQuick b → a = b)

include hnul hinj

theorem ebxRows_spec : m.ebxRows.2.Valid m.names ∧
    ∀ F T stringsOffset, TableAt F T stringsOffset → m.ebxRows.2.bytes <+: T →
      ReadsIn F (repeatM (readName stringsOffset) m.ebxEntries.length) m.ebxRows.1
        m.ebxEntries := by
  have h := namesBytes_spec hinj hnul m.ebxEntries (StringTable.valid_empty m.names)
    fun e he => by
      simp only [names, List.mem_append, List.mem_map]
      exact .inl ⟨e, he, rfl⟩
  exact ⟨h.1, h.2.2⟩

theorem resRows_spec : m.resRows.2.Valid m.names ∧ m.ebxRows.2.bytes <+: m.resRows.2.bytes ∧
    ∀ F T stringsOffset, TableAt F T stringsOffset → m.resRows.2.bytes <+: T →
      ReadsIn F (repeatM (readName stringsOffset) m.resEntries.length) m.resRows.1
        (m.resEntries.map ResEntry.toEbxEntry) := by
  have h := namesBytes_spec hinj hnul (m.resEntries.map ResEntry.toEbxEntry)
    (ebxRows_spec hnul hinj).1 fun e he => by
      obtain ⟨r, hr, rfl⟩ := List.mem_map.mp he
      simp only [names, List.mem_append, List.mem_map]
      exact .inr ⟨r, hr, rfl⟩
  rw [List.length_map] at h
  exact h

theorem writeBody_appends (hm : m.MetaStorable) (hlen : m.bytes.length < 2 ^ 31)
    {L : List UInt8} (hL : L.length = 32 + m.sha1Gap.length) :
    Appends L m.writeBody (m.entriesBytes ++ (m.metaBytes ++ m.stringsBytes))
      (UInt32.ofNat m.stringsPos, m.metaSpan) := by
  simp only [bytes, stringsBytes, List.length_append, length_countsBytes,
    length_offsetsBytes] at hlen
  have hentries : (L ++ m.ebxRows.1 ++ m.resRows.1 ++ m.columnsBytes).length = m.metaPos := by
    simp only [metaPos, entriesBytes, List.length_append]
    omega
  have hstrings : (L ++ m.ebxRows.1 ++ m.resRows.1 ++ m.columnsBytes ++ m.metaBytes).length
      = m.stringsPos := by
    rw [List.length_append, hentries, stringsPos]
  have hpad : (L ++ m.ebxRows.1 ++ m.resRows.1 ++ m.columnsBytes ++ m.metaBytes ++
      m.resRows.2.bytes).length = m.stringsPos + m.resRows.2.bytes.length := by
    rw [List.length_append, hstrings]
  have htable := strings_emits (resRows_spec hnul hinj).1 (by omega)
  have hfinish := padTo16_appends (L ++ m.ebxRows.1 ++ m.resRows.1 ++
    m.columnsBytes ++ m.metaBytes ++ m.resRows.2.bytes)
  rw [hpad] at hfinish
  rw [entriesBytes, List.append_assoc, List.append_assoc]
  refine (writeNames_appends _ _ L).bind ((writeNames_appends _ _ _).bind
    ((writeColumns_emits m _).bind ((writeMeta_appends hm (by omega) hentries).bind ?_)))
  refine (getWritePos_appends _).bind_nil ?_
  rw [hstrings]
  exact (htable _).bind (hfinish.map _)

/-- `Save` writes the encoding. -/
theorem save_eq (hm : m.MetaStorable) (hlen : m.bytes.length < 2 ^ 31) :
    m.save = .ok m.bytes := by
  have hbody := @writeBody_appends m hnul hinj hm hlen
  have hfits : m.countsBytes.length + 12 + m.sha1Gap.length +
      (m.entriesBytes ++ (m.metaBytes ++ m.stringsBytes)).length < 2 ^ 31 := by
    simp only [bytes, List.length_append, length_offsetsBytes] at hlen ⊢
    omega
  rw [length_countsBytes] at hfits
  obtain ⟨s₁, h₁, hh₁, hb₁⟩ := m.writeCounts_emits [] {} ByteBuffer.holds_nil (by simp)
  obtain ⟨s₂, h₂, hh₂, hb₂⟩ := writeOffsets_emits 0 0 0 _ s₁ hh₁ (by simp)
  have hbuf₁ := hb₁ (.inl rfl)
  have hbuf₂ := hb₂ (.inl hbuf₁)
  have hgap : m.sha1Gap.length = 20 * m.totalCount.toNat := List.length_replicate
  obtain ⟨s₃, h₃, hbuf₃, hh₃⟩ := skipSha1s_gap m.totalCount.toNat hh₂
    (by rw [← hgap, List.nil_append, List.length_append, length_countsBytes, length_offsetsBytes]
        omega)
  clear hgap
  have hL : ([] ++ m.countsBytes ++ offsetsBytes 0 0 0 ++ m.sha1Gap).length
      = 32 + m.sha1Gap.length := by
    rw [List.length_append]
    rfl
  obtain ⟨s₄, h₄, hh₄, hb₄⟩ := hbody hL s₃ hh₃
    (by simp only [List.length_append, length_countsBytes, length_offsetsBytes,
          List.length_nil] at hfits ⊢
        omega)
  -- A gap is followed by at least one entry, so the vector has caught up with it.
  have hbuf₄ := hb₄ (by
    by_cases hnil : m.entriesBytes = []
    · left
      rw [hbuf₃, hbuf₂, sha1Gap_eq_nil hnil, List.append_nil]
    · right
      simp [hnil])
  have hlen₄ : s₄.buf.length < 2 ^ 32 := by
    rw [hbuf₄, List.length_append, hL]
    omega
  have hsplit₄ : s₄.buf = m.countsBytes ++ (offsetsBytes 0 0 0 ++
      (m.sha1Gap ++ (m.entriesBytes ++ (m.metaBytes ++ m.stringsBytes)))) := by
    rw [hbuf₄, List.nil_append, List.append_assoc, List.append_assoc]
  obtain ⟨s₅, h₅, hbuf₅, -⟩ := writeOffsets_overwrites (UInt32.ofNat m.stringsPos) m.metaSpan.1
    m.metaSpan.2 { s₄ with wpos := 20 } _ _ _ hsplit₄ (length_countsBytes m).symm
    (by rw [length_offsetsBytes, length_offsetsBytes]) hlen₄
  have hwrite : m.write {} = .ok ((), s₅) := by
    have hpos : getWritePos s₁ = .ok (20, s₁) := by
      show Except.ok (s₁.wpos, s₁) = _
      rw [hh₁.wpos_eq]
      simp
    rw [write, BufM.bind_ok h₁, BufM.bind_ok hpos, BufM.bind_ok h₂, BufM.bind_ok h₃,
      BufM.bind_ok h₄]
    have hset : setWritePos 20 s₄ = .ok ((), { s₄ with wpos := 20 }) := rfl
    show (setWritePos 20 >>= fun _ => writeOffsets _ m.metaSpan.1 m.metaSpan.2) s₄ = _
    rw [BufM.bind_ok hset]
    exact h₅
  rw [save, StateT.run, hwrite, except_ok_bind]
  exact congrArg Except.ok hbuf₅

/-! ### Load -/

omit hnul hinj in
theorem readChunk_reads (entry : ChunkEntry) : Reads readChunk (chunkBytes entry) entry := by
  have hguid : Reads getBytes16 entry.guid.toFrostyBE
      (Vector.ofFn fun i : Fin 16 => entry.guid.toFrostyBE.getD i 0) :=
    (getBytes_reads entry.guid.toFrostyBE).map _
  suffices h : Reads readChunk (chunkBytes entry)
      { guid := Guid.fromFrostyBE (Vector.ofFn fun i : Fin 16 => entry.guid.toFrostyBE.getD i 0)
        logicalOffset := entry.logicalOffset, logicalSize := entry.logicalSize } by
    rwa [Guid.fromFrostyBE_toFrostyBE] at h
  exact hguid.bind ((readU32_reads entry.logicalOffset).bind
    ((readU32_reads entry.logicalSize).map _))

omit hnul hinj in
/-- The skipped SHA-1s. -/
theorem sha1Gap_reads (m : BundleManifest) :
    Reads (repeatM (do setReadPos ((← getReadPos) + 20)) m.totalCount.toNat) m.sha1Gap
      (List.replicate m.totalCount.toNat ()) := by
  intro F
  have hskip : ReadsIn F (do setReadPos ((← getReadPos) + 20)) (List.replicate 20 0) () := by
    intro s tail _ _
    rfl
  have h := repeatM_reads (List.replicate m.totalCount.toNat ())
    (g := fun _ => List.replicate 20 (0 : UInt8)) fun _ _ => hskip
  have hbytes : (List.replicate m.totalCount.toNat ()).flatMap
      (fun _ => List.replicate 20 (0 : UInt8)) = m.sha1Gap := by
    rw [sha1Gap, List.flatMap_replicate, List.flatten_replicate_replicate, Nat.mul_comm]
  rwa [hbytes, List.length_replicate] at h

omit hnul hinj in
theorem zipRes_columns (entries : List ResEntry) :
    zipRes (entries.map ResEntry.toEbxEntry) (entries.map ResEntry.resType)
      (entries.map ResEntry.resMeta) (entries.map ResEntry.resRid) = entries := by
  induction entries with
  | nil => rfl
  | cons entry entries ih =>
      simp only [List.map_cons, zipRes, ih]

omit hnul hinj in
/-- The meta stands where the header says, in whatever state the cursor is. -/
theorem readMeta_run (hm : m.MetaStorable) (hlen : m.bytes.length < 2 ^ 31) {s : ByteBuffer}
    (hs : s.buf = m.bytes) :
    ∃ s', readMeta m.metaSpan.1 m.metaSpan.2 s = .ok (m.chunkMeta, s') := by
  have hfits : m.stringsPos < 2 ^ 31 := by
    simp only [bytes, List.length_append, length_countsBytes, length_offsetsBytes] at hlen
    simp only [stringsPos, metaPos]
    omega
  cases hobj : m.chunkMeta with
  | none =>
      refine ⟨s, ?_⟩
      rw [metaSpan, hobj]
      rfl
  | some obj =>
      have hmeta : m.metaBytes = obj.bytes chunkMetaName := by rw [metaBytes, hobj]
      rw [stringsPos, hmeta] at hfits
      have hfront : 32 ≤ m.metaPos := by
        rw [metaPos]
        omega
      have hpos : 0 < (obj.bytes chunkMetaName).length :=
        List.length_pos_iff.mpr (obj.bytes_ne_nil _)
      have hsize : (UInt32.ofNat (obj.bytes chunkMetaName).length).toNat
          = (obj.bytes chunkMetaName).length := by
        rw [UInt32.toNat_ofNat']
        omega
      have hoff : (UInt32.ofNat m.metaPos).toNat = m.metaPos := by
        rw [UInt32.toNat_ofNat']
        omega
      have hlong : 0 < UInt32.ofNat (obj.bytes chunkMetaName).length := by
        rw [UInt32.lt_iff_toNat_lt, hsize]
        exact hpos
      have hrest : ({ s with rpos := m.metaPos } : ByteBuffer).rest
          = obj.bytes chunkMetaName ++ m.stringsBytes := by
        have hfront : m.bytes = (m.countsBytes ++ offsetsBytes (UInt32.ofNat m.stringsPos)
            m.metaSpan.1 m.metaSpan.2 ++ m.sha1Gap ++ m.entriesBytes) ++
              (m.metaBytes ++ m.stringsBytes) := by
          simp only [bytes, List.append_assoc]
        rw [ByteBuffer.rest, hs, hfront, hmeta, List.drop_left']
        simp only [List.length_append, length_countsBytes, length_offsetsBytes, metaPos]
      have hread := getBytes_reads (obj.bytes chunkMetaName) m.bytes
        { s with rpos := m.metaPos } _ hs hrest
      have hload := DbObject.load_reads (metaBytes_storable hm hobj (by omega))
        chunkMetaName_nulFree (by omega) _ (.ofBytes (obj.bytes chunkMetaName)) [] rfl (by simp)
      refine ⟨({ s with rpos := m.metaPos } : ByteBuffer).skip
        (obj.bytes chunkMetaName).length, ?_⟩
      rw [metaSpan, hobj]
      simp only
      rw [readMeta, if_pos hlong, hoff, hsize]
      have hset : setReadPos m.metaPos s = .ok ((), { s with rpos := m.metaPos }) := rfl
      rw [BufM.bind_ok hset, BufM.bind_ok hread]
      show (((DbObject.load []).run (.ofBytes (obj.bytes chunkMetaName)) >>= fun p =>
        Except.ok (p, _)) >>= fun p => _) = _
      rw [show (DbObject.load []).run (.ofBytes (obj.bytes chunkMetaName)) = _ from hload]
      rfl

omit hnul hinj in
theorem toNat_count {n : Nat} (h : n ≤ m.entriesBytes.length) (hlen : m.bytes.length < 2 ^ 31) :
    (UInt32.ofNat n).toNat = n := by
  simp only [bytes, List.length_append] at hlen
  rw [UInt32.toNat_ofNat']
  omega

/-- `Load` reads the encoding back. -/
theorem load_eq (hm : m.MetaStorable) (hlen : m.bytes.length < 2 ^ 31) :
    load m.bytes = .ok m := by
  have hcount := m.count_le_entriesBytes
  have hebx := toNat_count (n := m.ebxEntries.length) (by omega) hlen
  have hres := toNat_count (n := m.resEntries.length) (by omega) hlen
  have hchunk := toNat_count (n := m.chunkEntries.length) (by omega) hlen
  have htable : TableAt m.bytes m.resRows.2.bytes (UInt32.ofNat m.stringsPos) := by
    refine ⟨⟨m.countsBytes ++ offsetsBytes (UInt32.ofNat m.stringsPos) m.metaSpan.1
      m.metaSpan.2 ++ m.sha1Gap ++ m.entriesBytes ++ m.metaBytes,
      padding (m.stringsPos + m.resRows.2.bytes.length), ?_, ?_⟩, by omega⟩
    · simp only [bytes, stringsBytes, List.append_assoc]
    · simp only [List.length_append, length_countsBytes, length_offsetsBytes, stringsPos, metaPos]
  have hprefix := (resRows_spec hnul hinj).2.1
  have hcol : ∀ {α : Type} {r : BufM α} {g : α → List UInt8} (f : ResEntry → α),
      (∀ a, Reads r (g a) a) → ReadsIn m.bytes (repeatM r m.resEntries.length)
        (m.resEntries.flatMap fun e => g (f e)) (m.resEntries.map f) := by
    intro α r g f hr
    have h := repeatM_reads (F := m.bytes) (g := g) (m.resEntries.map f)
      fun a _ => hr a _
    rwa [List.length_map, List.flatMap_map] at h
  have hread : Answers m.bytes BundleManifest.read m.bytes m := by
    have hsplit : m.bytes = be32 0x9D798ED5 ++ (be32 m.totalCount ++
        (be32 (UInt32.ofNat m.ebxEntries.length) ++ (be32 (UInt32.ofNat m.resEntries.length) ++
        (be32 (UInt32.ofNat m.chunkEntries.length) ++ (be32 (UInt32.ofNat m.stringsPos) ++
        (be32 m.metaSpan.1 ++ (be32 m.metaSpan.2 ++ (m.sha1Gap ++ (m.ebxRows.1 ++
        (m.resRows.1 ++ ((m.resEntries.flatMap fun e => be32 e.resType) ++
        ((m.resEntries.flatMap fun e => e.resMeta.toList) ++
        ((m.resEntries.flatMap fun e => be64 e.resRid) ++
        (m.chunkEntries.flatMap chunkBytes ++ (m.metaBytes ++ m.stringsBytes))))))))))))))) := by
      simp only [bytes, countsBytes, offsetsBytes, entriesBytes, columnsBytes, List.append_assoc]
    conv =>
      arg 3
      rw [hsplit]
    refine (readU32_reads _ _).bind_answers ?_
    simp only [show (0x9D798ED5 : UInt32) ^^^ 0x7065636D = 0xED1CEDB8 by decide, ne_eq,
      not_true_eq_false, if_false]
    refine (readU32_reads _ _).bind_answers ((readU32_reads _ _).bind_answers
      ((readU32_reads _ _).bind_answers ((readU32_reads _ _).bind_answers
        ((readU32_reads _ _).bind_answers ((readU32_reads _ _).bind_answers
          ((readU32_reads _ _).bind_answers ((sha1Gap_reads m _).bind_answers ?_)))))))
    rw [hebx, hres, hchunk]
    refine ((ebxRows_spec hnul hinj).2 _ _ _ htable hprefix).bind_answers
      (((resRows_spec hnul hinj).2.2 _ _ _ htable List.prefix_rfl).bind_answers
        ((hcol _ readU32_reads).bind_answers ((hcol _ getBytes16_reads).bind_answers
          ((hcol _ readU64_reads).bind_answers
            ((repeatM_reads _ fun e _ => readChunk_reads e _).bind_answers ?_)))))
    intro s hs _
    obtain ⟨s', hmeta⟩ := readMeta_run hm hlen hs
    refine ⟨s', ?_⟩
    rw [BufM.bind_ok hmeta, zipRes_columns]
    rfl
  obtain ⟨s', hs'⟩ := hread (.ofBytes m.bytes) rfl rfl
  show (BundleManifest.read (.ofBytes m.bytes) >>= fun p => Except.ok p.1) = _
  rw [hs']
  rfl

end Codec

end BundleManifest

/-- Saving a manifest and loading the bytes into a fresh one gives back its
entries in their order and its meta. -/
theorem bundleManifest_load_save (m : BundleManifest)
    (hnul : ∀ a ∈ m.names, (0 : UInt8) ∉ a)
    (hinj : ∀ a ∈ m.names, ∀ b ∈ m.names, hashQuick a = hashQuick b → a = b)
    (hmeta : m.MetaStorable) (hsize : m.bytes.length < 2 ^ 31) :
    m.save = .ok m.bytes ∧ BundleManifest.load m.bytes = .ok m :=
  ⟨BundleManifest.save_eq hnul hinj hmeta hsize, BundleManifest.load_eq hnul hinj hmeta hsize⟩

/-- An ebx and a res of one name, a chunk and its meta. -/
theorem bundleManifest_load_save_sample :
    let m : BundleManifest :=
      { ebxEntries := [{ name := [0x61, 0x2f, 0x62], originalSize := 12 }]
        resEntries := [{ name := [0x61, 0x2f, 0x62], originalSize := 7, resType := 0x36f3f2c0,
                         resMeta := Vector.replicate 16 3, resRid := 0xda3f0b7dd1bd9a8c }]
        chunkEntries := [{ guid := Vector.ofFn fun i => UInt8.ofNat i.val, logicalOffset := 0,
                           logicalSize := 640 }]
        chunkMeta := some (.list [.map [([0x68, 0x33, 0x32], .int 7)]]) }
    m.save = .ok m.bytes ∧ BundleManifest.load m.bytes = .ok m :=
  bundleManifest_load_save _ (by decide) (by decide)
    (by
      rintro obj ⟨⟩
      refine ⟨4, ?_⟩
      simp [DbObject.Storable, ItemsStorable, EntriesStorable])
    (by decide +kernel)

end Kyber.ModLoader
