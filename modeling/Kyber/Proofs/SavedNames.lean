import Kyber.Lib.Firsts
import Kyber.Proofs.BundleCodec

/-!
# The names a saved bundle gives its entries

`Save` puts a name into the string table only if its hash has not been seen, and an entry
gets the offset that is remembered for the hash. So two names of one hash share an offset, and
the entry that came second is loaded under the name of the first.

What the loops write is a function of the names alone. The table holds the first name of each
hash (`internAll_of`), and the offset of a name is where the first name of its hash starts,
modulo the width of the field. Everything about saved names is read off this: they are the
entries' own exactly if no two of them share a hash and all of them start where the field
reaches.
-/

namespace Kyber.ModLoader

open Kyber.Lib

/-! ## What the loops write -/

/-- The offsets that names get one after the other, and the table they leave. -/
def internAll : List ByteString → StringTable → List UInt32 × StringTable
  | [], t => ([], t)
  | name :: names, t =>
      let (offset, t) := t.intern name
      let (offsets, t) := internAll names t
      (offset :: offsets, t)

/-- The row of an entry. -/
def writeRow (row : UInt32 × EbxEntry) : BufM Unit := do
  putInt (swapEndiannessU32 row.1)
  putInt (swapEndiannessU32 row.2.originalSize)

theorem writeNames_eq (entries : List EbxEntry) (t : StringTable) :
    writeNames entries t = (do
      ((internAll (entries.map EbxEntry.name) t).1.zip entries).forM writeRow
      return (internAll (entries.map EbxEntry.name) t).2) := by
  induction entries generalizing t with
  | nil => rfl
  | cons entry entries ih =>
      rw [writeNames, List.map_cons, internAll]
      simp only [ih, List.zip_cons_cons]
      rw [show List.forM (_ :: _) writeRow = _ from List.forM_cons]
      simp only [writeRow, bind_assoc]
      rfl

theorem writeNames_append (entries more : List EbxEntry) (t : StringTable) :
    writeNames (entries ++ more) t = writeNames entries t >>= writeNames more := by
  induction entries generalizing t with
  | nil => rfl
  | cons entry entries ih =>
      rw [List.cons_append, writeNames, writeNames]
      simp only [ih, bind_assoc]

/-! ## The table -/

/-- Where the first string of a hash starts. -/
def placeOf (hash : UInt32) (strings : List ByteString) : Nat :=
  (tableBytes (strings.takeWhile fun str => hashQuick str ≠ hash)).length

theorem placeOf_append {hash : UInt32} {strings : List ByteString}
    (h : hash ∈ strings.map hashQuick) (more : List ByteString) :
    placeOf hash (strings ++ more) = placeOf hash strings := by
  obtain ⟨str, hstr, heq⟩ := List.mem_map.mp h
  rw [placeOf, placeOf, List.takeWhile_append, if_neg]
  intro hlen
  have hall := (List.takeWhile_prefix _).eq_of_length hlen
  have := List.takeWhile_eq_self_iff.mp hall str hstr
  simp [heq] at this

theorem placeOf_new {name : ByteString} {strings : List ByteString}
    (h : hashQuick name ∉ strings.map hashQuick) :
    placeOf (hashQuick name) (strings ++ [name]) = (tableBytes strings).length := by
  have hall : strings.takeWhile (fun str => hashQuick str ≠ hashQuick name) = strings := by
    refine List.takeWhile_eq_self_iff.mpr fun str hstr => ?_
    rw [decide_eq_true_eq]
    exact fun heq => h (List.mem_map.mpr ⟨str, hstr, heq⟩)
  rw [placeOf, List.takeWhile_append, if_pos (by rw [hall])]
  simp

/-- The table that names leave. -/
structure StringTable.Of (names : List ByteString) (t : StringTable) : Prop where
  strings_eq : t.strings = firsts hashQuick names
  nameOffset_eq : t.nameOffset = UInt32.ofNat (tableBytes t.strings).length
  offset_eq : ∀ hash, t.stringOffsets[hash]?
    = if hash ∈ names.map hashQuick then some (UInt32.ofNat (placeOf hash t.strings)) else none

theorem StringTable.of_nil : StringTable.Of [] {} where
  strings_eq := rfl
  nameOffset_eq := rfl
  offset_eq hash := by simp

theorem StringTable.Of.intern {names : List ByteString} {t : StringTable} (ht : t.Of names)
    {name : ByteString} (hnul : (0 : UInt8) ∉ name) :
    (t.intern name).2.Of (names ++ [name]) ∧
      (t.intern name).1 = UInt32.ofNat (placeOf (hashQuick name) (t.intern name).2.strings) := by
  have hoffset := ht.offset_eq (hashQuick name)
  unfold StringTable.intern
  by_cases hmem : hashQuick name ∈ names.map hashQuick
  · rw [if_pos hmem] at hoffset
    simp only [hoffset]
    refine ⟨⟨?_, ht.nameOffset_eq, fun hash => ?_⟩, trivial⟩
    · rw [firsts_concat, if_pos hmem, ht.strings_eq]
    · rw [ht.offset_eq, List.map_append, List.map_singleton]
      refine if_congr ?_ rfl rfl
      rw [List.mem_append, List.mem_singleton]
      exact ⟨.inl, fun h => h.elim id fun heq => heq ▸ hmem⟩
  · rw [if_neg hmem] at hoffset
    simp only [hoffset]
    have hc : cStr name = name := List.takeWhile_eq_self_iff.mpr (nonzero_of_nulFree hnul)
    have hnew : hashQuick name ∉ t.strings.map hashQuick := by
      rwa [ht.strings_eq, mem_map_firsts]
    rw [hc]
    refine ⟨⟨?_, ?_, fun hash => ?_⟩, ?_⟩
    · rw [firsts_concat, if_neg hmem, ht.strings_eq]
    · simp only [tableBytes, List.flatMap_append, List.length_append] at ht ⊢
      rw [ht.nameOffset_eq, UInt32.ofNat_add]
      simp [tableBytes]
    · rw [Std.TreeMap.getElem?_insert, List.map_append, List.map_singleton]
      split
      next heq =>
        obtain rfl := Std.LawfulEqCmp.eq_of_compare heq
        rw [if_pos (by simp), placeOf_new hnew, ht.nameOffset_eq]
      next hne =>
        have hne : hash ≠ hashQuick name := fun h => hne (h ▸ Std.ReflCmp.compare_self)
        rw [ht.offset_eq]
        by_cases hold : hash ∈ names.map hashQuick
        · rw [if_pos hold, if_pos (List.mem_append_left _ hold), placeOf_append]
          rwa [ht.strings_eq, mem_map_firsts]
        · rw [if_neg hold, if_neg (by simp [hne, hold])]
    · rw [placeOf_new hnew, ht.nameOffset_eq]

/-- The table holds the first name of each hash, and a name gets the place of the first of its
own. -/
theorem internAll_of {done names : List ByteString} {t : StringTable} (ht : t.Of done)
    (hnul : ∀ name ∈ names, (0 : UInt8) ∉ name) :
    (internAll names t).2.Of (done ++ names) ∧
      (internAll names t).1 = names.map fun name =>
        UInt32.ofNat (placeOf (hashQuick name) (firsts hashQuick (done ++ names))) := by
  induction names generalizing done t with
  | nil => exact ⟨by simpa [internAll] using ht, rfl⟩
  | cons name names ih =>
      obtain ⟨hof, hoffset⟩ := ht.intern (hnul name List.mem_cons_self)
      obtain ⟨hall, hoffsets⟩ := ih hof fun a ha => hnul a (List.mem_cons_of_mem _ ha)
      rw [List.append_assoc, List.singleton_append] at hall hoffsets
      refine ⟨hall, ?_⟩
      show (t.intern name).1 :: (internAll names (t.intern name).2).1 = _
      rw [List.map_cons, hoffsets, hoffset, hof.strings_eq]
      -- The names after this one do not change where the first of its hash is.
      obtain ⟨more, hmore⟩ := firsts_prefix hashQuick (done ++ [name]) names
      rw [List.append_assoc, List.singleton_append] at hmore
      rw [← hmore, placeOf_append]
      rw [mem_map_firsts]
      simp

/-! ## Names of their own -/

/-- A string of the table starts at an offset. -/
def StartsAt (strings : List ByteString) (offset : UInt32) (name : ByteString) : Prop :=
  ∃ before after, strings = before ++ name :: after ∧ offset.toNat = (tableBytes before).length

theorem tableBytes_append (front back : List ByteString) :
    tableBytes (front ++ back) = tableBytes front ++ tableBytes back := List.flatMap_append

theorem length_tableBytes_cons (str : ByteString) (strings : List ByteString) :
    0 < (tableBytes (str :: strings)).length := by
  simp [tableBytes]

/-- One string starts at an offset. -/
theorem StartsAt.unique {strings : List ByteString} {offset : UInt32} {a b : ByteString}
    (ha : StartsAt strings offset a) (hb : StartsAt strings offset b) : a = b := by
  obtain ⟨before, after, rfl, hbefore⟩ := ha
  obtain ⟨before', after', heq, hbefore'⟩ := hb
  rw [hbefore] at hbefore'
  rcases List.append_eq_append_iff.mp heq with ⟨mid, rfl, hmid⟩ | ⟨mid, rfl, hmid⟩
  · cases mid with
    | nil => exact (List.cons_eq_cons.mp hmid).1
    | cons str mid =>
        have := length_tableBytes_cons str mid
        rw [tableBytes_append, List.length_append] at hbefore'
        omega
  · cases mid with
    | nil => exact (List.cons_eq_cons.mp hmid).1.symm
    | cons str mid =>
        have := length_tableBytes_cons str mid
        rw [tableBytes_append, List.length_append] at hbefore'
        omega

/-- The first string of a hash, with what stands in front of it. -/
theorem exists_first {hash : UInt32} {strings : List ByteString}
    (h : hash ∈ strings.map hashQuick) :
    ∃ before str after, strings = before ++ str :: after ∧ hashQuick str = hash ∧
      placeOf hash strings = (tableBytes before).length := by
  induction strings with
  | nil => cases h
  | cons str strings ih =>
      by_cases heq : hashQuick str = hash
      · refine ⟨[], str, strings, rfl, heq, ?_⟩
        rw [placeOf, List.takeWhile_cons_of_neg (by simpa using heq)]
      · have hrest : hash ∈ strings.map hashQuick :=
          (List.mem_cons.mp h).resolve_left (Ne.symm heq)
        obtain ⟨before, first, after, rfl, hfirst, hplace⟩ := ih hrest
        refine ⟨str :: before, first, after, rfl, hfirst, ?_⟩
        rw [placeOf] at hplace ⊢
        rw [List.takeWhile_cons_of_pos (by simpa using heq), ← List.singleton_append,
          tableBytes_append, List.length_append, hplace, ← List.length_append, ← tableBytes_append]
        rfl

namespace BundleManifest

/-- The entries that have names, in the order in which they are written. -/
def named (m : BundleManifest) : List EbxEntry :=
  m.ebxEntries ++ m.resEntries.map ResEntry.toEbxEntry

theorem map_name_named (m : BundleManifest) : m.named.map EbxEntry.name = m.names := by
  rw [named, names, List.map_append, List.map_map]
  rfl

/-- The name offsets `Save` writes. -/
def offsets (m : BundleManifest) : List UInt32 := (internAll m.names {}).1

/-- The string table `Save` writes. -/
def table (m : BundleManifest) : StringTable := (internAll m.names {}).2

/-- Every entry has the offset of its own name. -/
def SavedNames (m : BundleManifest) : Prop :=
  List.Forall₂ (StartsAt m.table.strings) m.offsets m.names

/-- No two names share a hash. -/
def NoCollisions (m : BundleManifest) : Prop :=
  ∀ a ∈ m.names, ∀ b ∈ m.names, hashQuick a = hashQuick b → a = b

/-- Names, each written once, start where an offset reaches. -/
def NamesFit (m : BundleManifest) : Prop :=
  ∀ before name after, firsts id m.names = before ++ name :: after →
    (tableBytes before).length < 2 ^ 32

section Names

variable {m : BundleManifest} (hnul : ∀ name ∈ m.names, (0 : UInt8) ∉ name)

include hnul

theorem table_strings : m.table.strings = firsts hashQuick m.names := by
  have h := (internAll_of StringTable.of_nil hnul).1.strings_eq
  rwa [List.nil_append] at h

theorem savedNames_iff_startsAt : m.SavedNames ↔ ∀ name ∈ m.names,
    StartsAt m.table.strings (UInt32.ofNat (placeOf (hashQuick name) m.table.strings)) name := by
  have h := (internAll_of StringTable.of_nil hnul).2
  rw [List.nil_append, ← table_strings hnul] at h
  rw [SavedNames, offsets, h, List.forall₂_map_left_iff, List.forall₂_same]

theorem noCollisions_of_savedNames (h : m.SavedNames) : m.NoCollisions := by
  intro a ha b hb heq
  have h := (savedNames_iff_startsAt hnul).mp h
  have hstart := h b hb
  rw [← heq] at hstart
  exact (h a ha).unique hstart

omit hnul in
theorem NoCollisions.firsts_eq (h : m.NoCollisions) :
    firsts hashQuick m.names = firsts id m.names :=
  firsts_congr _ fun a ha b hb => ⟨h a ha b hb, fun heq => congrArg hashQuick heq⟩

theorem namesFit_of_savedNames (h : m.SavedNames) : m.NamesFit := by
  intro before name after heq
  have hstrings := table_strings hnul
  rw [(noCollisions_of_savedNames hnul h).firsts_eq] at hstrings
  have hnodup := nodup_firsts id m.names
  rw [List.map_id] at hnodup
  have hmem : name ∈ m.names :=
    (firsts_sublist id m.names).subset (heq ▸ List.mem_append_right _ List.mem_cons_self)
  obtain ⟨before', after', heq', hlen⟩ := (savedNames_iff_startsAt hnul).mp h name hmem
  rw [hstrings] at heq'
  -- No name is in the table twice.
  rw [heq] at hnodup heq'
  obtain ⟨-, hnotMem, hdisjoint⟩ := List.nodup_append'.mp hnodup
  have hbefore : before = before' :=
    ((List.append_cons_inj_of_notMem (fun h => hdisjoint h List.mem_cons_self)
      (List.nodup_cons.mp hnotMem).1).mp heq').1
  rw [hbefore, ← hlen]
  exact UInt32.toNat_lt _

theorem savedNames_of_fit (h : m.NoCollisions) (hfit : m.NamesFit) : m.SavedNames := by
  rw [savedNames_iff_startsAt hnul, table_strings hnul]
  intro name hname
  obtain ⟨before, str, after, heq, hhash, hplace⟩ := exists_first
    ((mem_map_firsts hashQuick).mpr (List.mem_map_of_mem (f := hashQuick) hname))
  have hstr : str ∈ m.names := (firsts_sublist hashQuick m.names).subset
    (heq ▸ List.mem_append_right _ List.mem_cons_self)
  obtain rfl := h str hstr name hname hhash
  refine ⟨before, after, heq, ?_⟩
  rw [hplace, UInt32.toNat_ofNat']
  exact Nat.mod_eq_of_lt (hfit before str after (h.firsts_eq ▸ heq))

end Names

/-- What `Save` writes behind the header, with the rows of the named entries and the table as
functions of the manifest. -/
def writeBodyRows (m : BundleManifest) : BufM (UInt32 × UInt32 × UInt32) := do
  (m.offsets.zip m.named).forM writeRow
  m.writeColumns
  let (metaOffset, metaSize) ← m.writeMeta
  let stringsOffset ← getWritePos
  m.table.strings.forM putNullTerminatedString
  padRounds 16 16
  return (UInt32.ofNat stringsOffset, metaOffset, metaSize)

theorem writeBody_eq (m : BundleManifest) : m.writeBody = m.writeBodyRows := by
  have h := writeNames_eq m.named {}
  rw [map_name_named, named, writeNames_append] at h
  rw [writeBody, ← bind_assoc, h, writeBodyRows, offsets, table, named]
  simp only [bind_assoc, pure_bind]

/-- The offsets that `Save` writes are those of the entries' own names exactly if no two names
share a hash and all of them start within the reach of an offset. -/
theorem savedNames_iff (m : BundleManifest) (hnul : ∀ name ∈ m.names, (0 : UInt8) ∉ name) :
    m.writeBody = m.writeBodyRows ∧ (m.SavedNames ↔ m.NoCollisions ∧ m.NamesFit) :=
  ⟨m.writeBody_eq,
    fun h => ⟨noCollisions_of_savedNames hnul h, namesFit_of_savedNames hnul h⟩,
    fun h => savedNames_of_fit hnul h.1 h.2⟩

/-- `b`, as an ebx and as a res, and `c`. -/
theorem savedNames_sample :
    let m : BundleManifest :=
      { ebxEntries := [{ name := [0x62], originalSize := 12 }, { name := [0x63], originalSize := 3 }]
        resEntries := [{ name := [0x62], originalSize := 7, resType := 1,
                         resMeta := Vector.replicate 16 0, resRid := 5 }] }
    m.writeBody = m.writeBodyRows ∧ (m.SavedNames ↔ m.NoCollisions ∧ m.NamesFit) :=
  savedNames_iff _ (by decide)

/-- `a8` and `f_`, which have the same hash. -/
def sameHash : BundleManifest :=
  { ebxEntries := [{ name := [0x61, 0x38], originalSize := 12 },
                   { name := [0x66, 0x5f], originalSize := 3 }] }

/-- Both are saved under the name of the first. -/
theorem saved_under_other_name :
    (∀ name ∈ sameHash.names, (0 : UInt8) ∉ name) ∧ sameHash.offsets = [0, 0] ∧
      sameHash.table.strings = [[0x61, 0x38]] ∧ ¬ sameHash.SavedNames := by
  have hnul : ∀ name ∈ sameHash.names, (0 : UInt8) ∉ name := by decide
  refine ⟨hnul, by decide, by decide, fun h => ?_⟩
  have hsame := noCollisions_of_savedNames hnul h [0x61, 0x38] (by decide) [0x66, 0x5f] (by decide)
    (by decide)
  cases hsame

end BundleManifest

end Kyber.ModLoader
