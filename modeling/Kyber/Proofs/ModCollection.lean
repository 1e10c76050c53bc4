import Mathlib.Data.List.Forall2
import Mathlib.Data.List.TakeWhile
import Kyber.Collection.ModCollection

/-!
# Which collections are read back

What the reader can answer is narrower than what the launcher can hold. A string that
ends at a zero byte is made of the code units 1 to 255, a string with a size of less
than 256 of them, and a list of sub-mods is a non-empty list of names without a comma.
So a collection that is read back is of this kind (`readable_read`), and one that is of
this kind and fits the writer's buffer is read back.
-/

namespace Kyber.Collection

open Kyber.Lib

/-! ## Strings -/

/-- Every code unit fits in a byte. -/
def Latin (s : DartString) : Prop := ∀ u ∈ s, u.toNat < 256

/-- Every code unit fits in a byte, and none is the terminator. -/
def Clean (s : DartString) : Prop := ∀ u ∈ s, u ≠ 0 ∧ u.toNat < 256

/-- A string that a one-byte size is enough for. -/
def Short (s : DartString) : Prop := Latin s ∧ s.length < 256

instance (s : DartString) : Decidable (Latin s) :=
  List.decidableBAll (fun u : UInt16 => u.toNat < 256) s

instance (s : DartString) : Decidable (Clean s) :=
  List.decidableBAll (fun u : UInt16 => u ≠ 0 ∧ u.toNat < 256) s

instance (s : DartString) : Decidable (Short s) := inferInstanceAs (Decidable (_ ∧ _))

theorem Clean.latin {s : DartString} (h : Clean s) : Latin s := fun u hu => (h u hu).2

theorem toUInt16_toUInt8 {u : UInt16} (h : u.toNat < 256) : u.toUInt8.toUInt16 = u := by
  apply UInt16.toNat_inj.mp
  rw [UInt8.toNat_toUInt16, UInt16.toNat_toUInt8]
  omega

theorem toUInt8_ne_zero {u : UInt16} (h : u ≠ 0) (hlt : u.toNat < 256) : u.toUInt8 ≠ 0 := by
  intro hz
  apply h
  rw [← toUInt16_toUInt8 hlt, hz]
  rfl

theorem Latin.map_toUInt8 {s : DartString} (h : Latin s) :
    (s.map UInt16.toUInt8).map UInt8.toUInt16 = s := by
  rw [List.map_map]
  conv_rhs => rw [← List.map_id s]
  exact List.map_congr_left fun u hu => toUInt16_toUInt8 (h u hu)

/-! ## Reading -/

theorem take_reads (bs : List UInt8) : Reads (take bs.length) bs bs := by
  intro tail
  rw [take, if_pos (by simp), List.take_left, List.drop_left]

theorem readUint32_reads {n : Nat} (h : n < 2 ^ 32) : Reads readUint32 (leBytes 4 n) n := by
  have hread := (take_reads (leBytes 4 n)).map leNat
  rw [length_leBytes, leNat_leBytes (by omega)] at hread
  exact hread

/-- What is written for a string that ends with a zero. -/
def textBytes (s : DartString) : List UInt8 := s.map UInt16.toUInt8 ++ [0]

theorem readTerminatedString_reads {s : DartString} (h : Clean s) :
    Reads readTerminatedString (textBytes s) s := by
  intro tail
  have hpos : ∀ b ∈ s.map UInt16.toUInt8, decide (b ≠ 0) = true := by
    intro b hb
    obtain ⟨u, hu, rfl⟩ := List.mem_map.mp hb
    exact decide_eq_true (toUInt8_ne_zero (h u hu).1 (h u hu).2)
  have htake := @List.takeWhile_append_of_pos _ _ _ (0 :: tail) hpos
  have hdrop := @List.dropWhile_append_of_pos _ _ _ (0 :: tail) hpos
  rw [readTerminatedString, textBytes, List.append_assoc, List.singleton_append, hdrop, htake]
  simp [h.latin.map_toUInt8]

/-- A string that is read to its terminator. -/
theorem readTerminatedString_yields : Yields readTerminatedString Clean := by
  intro rest s rest' h u hu
  rw [readTerminatedString] at h
  split at h
  · cases h
  · cases h
    obtain ⟨b, hb, rfl⟩ := List.mem_map.mp hu
    have hne : b ≠ 0 := by simpa using List.mem_takeWhile_imp hb
    have hlt := b.toNat_lt
    have hnat := b.toNat_toUInt16
    constructor
    · intro hz
      apply hne
      apply UInt8.toNat_inj.mp
      rw [← hnat, hz]
      rfl
    · omega

/-- What is written for a string with its size. -/
def sizedBytes (s : DartString) : List UInt8 :=
  UInt8.ofNat s.length :: s.map UInt16.toUInt8

theorem readSizedString_reads {s : DartString} (h : Short s) :
    Reads readSizedString (sizedBytes s) s := by
  have hsize : leNat [UInt8.ofNat s.length] = s.length := by
    have hlt := h.2
    rw [leNat, leNat, UInt8.toNat_ofNat']
    omega
  have hunits := (take_reads (s.map UInt16.toUInt8)).map (List.map UInt8.toUInt16)
  rw [List.length_map, h.1.map_toUInt8, ← hsize] at hunits
  exact (take_reads [UInt8.ofNat s.length]).bind hunits

theorem take_yields (n : Nat) : Yields (take n) fun bs => bs.length = n := by
  intro rest bs rest' h
  rw [take] at h
  split at h
  next hle =>
      cases h
      rw [List.length_take]
      omega
  · cases h

theorem readSizedString_yields : Yields readSizedString Short := by
  refine (take_yields 1).bind fun size hsize => (take_yields _).bind fun bs hbs => .pure ?_
  have hlt := leNat_lt size
  rw [hsize] at hlt
  refine ⟨?_, ?_⟩
  · intro u hu
    obtain ⟨b, -, rfl⟩ := List.mem_map.mp hu
    rw [UInt8.toNat_toUInt16]
    exact b.toNat_lt
  · rw [List.length_map, hbs]
    omega

/-! ## Lists of sub-mods -/

/-- Names that a list joined with commas can be split into again. -/
def Splittable (names : List DartString) : Prop :=
  names ≠ [] ∧ ∀ name ∈ names, Clean name ∧ comma ∉ name

instance (names : List DartString) : Decidable (Splittable names) :=
  inferInstanceAs (Decidable (_ ∧ _))

theorem mem_splitOn {α : Type} [BEq α] [LawfulBEq α] {x : α} {xs piece : List α}
    (h : piece ∈ xs.splitOn x) : x ∉ piece ∧ ∀ y ∈ piece, y ∈ xs := by
  induction xs generalizing piece with
  | nil =>
      rw [List.splitOn_nil, List.mem_singleton] at h
      subst h
      simp
  | cons y ys ih =>
      rw [List.splitOn_cons_eq_if_modifyHead] at h
      split at h
      · rcases List.mem_cons.mp h with rfl | h
        · simp
        · exact ⟨(ih h).1, fun z hz => List.mem_cons_of_mem _ ((ih h).2 z hz)⟩
      next hne =>
          -- The first piece of the rest is the one that the element goes to.
          cases hs : ys.splitOn x with
          | nil => exact absurd hs (List.splitOn_ne_nil x ys)
          | cons first others =>
              rw [hs, List.modifyHead_cons] at h
              rcases List.mem_cons.mp h with rfl | h
              · have hfirst := @ih first (by rw [hs]; simp)
                refine ⟨?_, ?_⟩
                · simp only [List.mem_cons, not_or]
                  exact ⟨fun heq => hne (by simp [heq]), hfirst.1⟩
                · intro z hz
                  rcases List.mem_cons.mp hz with rfl | hz
                  · simp
                  · exact List.mem_cons_of_mem _ (hfirst.2 z hz)
              · have hother := @ih piece (by rw [hs]; simp [h])
                exact ⟨hother.1, fun z hz => List.mem_cons_of_mem _ (hother.2 z hz)⟩

theorem splittable_splitMods {s : DartString} (h : Clean s) : Splittable (splitMods s) := by
  refine ⟨List.splitOn_ne_nil _ _, fun name hname => ?_⟩
  have hmem := mem_splitOn hname
  exact ⟨fun u hu => h u (hmem.2 u hu), hmem.1⟩

theorem splitMods_intercalate {names : List DartString} (h : Splittable names) :
    splitMods ([comma].intercalate names) = names :=
  List.splitOn_intercalate comma (fun name hname => (h.2 name hname).2) h.1

theorem mem_intercalate {α : Type} {sep : α} {ls : List (List α)} {x : α}
    (h : x ∈ [sep].intercalate ls) : x = sep ∨ ∃ l ∈ ls, x ∈ l := by
  induction ls with
  | nil => simp at h
  | cons l ls ih =>
      cases ls with
      | nil =>
          rw [List.intercalate_singleton] at h
          exact .inr ⟨l, by simp, h⟩
      | cons l' ls =>
          rw [List.intercalate_cons_cons, List.mem_append, List.mem_append,
            List.mem_singleton] at h
          rcases h with (h | h) | h
          · exact .inr ⟨l, by simp, h⟩
          · exact .inl h
          · rcases ih h with h | ⟨l₀, hl₀, h⟩
            · exact .inl h
            · exact .inr ⟨l₀, List.mem_cons_of_mem _ hl₀, h⟩

theorem clean_intercalate {names : List DartString} (h : Splittable names) :
    Clean ([comma].intercalate names) := by
  intro u hu
  rcases mem_intercalate hu with rfl | ⟨name, hname, hu⟩
  · decide
  · exact (h.2 name hname).1 u hu

/-! ## Mods -/

variable {basename : DartString → DartString}

/-- A mod that can be read back. -/
structure CollectionMod.Storable (mod : CollectionMod) : Prop where
  name : Clean mod.name
  version : Clean mod.version
  link : Clean mod.link
  filename : Clean (mod.filename.getD [])
  mods : ∃ names, mod.mods = some names ∧ Splittable names

/-- What is written for a mod. -/
def CollectionMod.bytes (mod : CollectionMod) : List UInt8 :=
  textBytes mod.name ++ (textBytes mod.version ++ (textBytes mod.link ++
    (textBytes (mod.filename.getD []) ++ (textBytes (boolText mod.isCollection) ++
      textBytes mod.joined))))

/-- What is read of a mod. -/
def CollectionMod.restored (mod : CollectionMod) : CollectionMod :=
  { mod with filename := some (mod.filename.getD []) }

theorem clean_boolText (b : Bool) : Clean (boolText b) := by
  cases b <;> decide

theorem parseBool_reads (b : Bool) : Reads (parseBool (boolText b)) [] b := by
  cases b <;> exact fun _ => rfl

theorem CollectionMod.read_reads {mod : CollectionMod} (h : mod.Storable) :
    Reads CollectionMod.read mod.bytes mod.restored := by
  obtain ⟨names, hmods, hnames⟩ := h.mods
  have hjoined : mod.joined = [comma].intercalate names := by simp [joined, hmods]
  have hclean : Clean mod.joined := by
    rw [hjoined]
    exact clean_intercalate hnames
  have hlast := (readTerminatedString_reads hclean).map fun mods =>
    ({ name := mod.name, version := mod.version, link := mod.link,
       filename := some (mod.filename.getD []), isCollection := mod.isCollection,
       mods := some (splitMods mods) } : CollectionMod)
  rw [hjoined, splitMods_intercalate hnames, ← hmods, ← hjoined] at hlast
  unfold CollectionMod.read bytes restored
  refine (readTerminatedString_reads h.name).bind ?_
  refine (readTerminatedString_reads h.version).bind ?_
  refine (readTerminatedString_reads h.link).bind ?_
  refine (readTerminatedString_reads h.filename).bind ?_
  refine (readTerminatedString_reads (clean_boolText _)).bind ?_
  exact (parseBool_reads mod.isCollection).bind hlast

theorem CollectionMod.read_yields : Yields CollectionMod.read CollectionMod.Storable :=
  readTerminatedString_yields.bind fun _ hname =>
    readTerminatedString_yields.bind fun _ hversion =>
      readTerminatedString_yields.bind fun _ hlink =>
        readTerminatedString_yields.bind fun _ hfilename =>
          readTerminatedString_yields.bind fun _ _ =>
            (Yields.true _).bind fun _ _ =>
              readTerminatedString_yields.bind fun _ hmods =>
                .pure ⟨hname, hversion, hlink, hfilename, _, rfl, splittable_splitMods hmods⟩

theorem readMods_reads {mods : List CollectionMod} (h : ∀ mod ∈ mods, mod.Storable) :
    Reads (readMods mods.length) (mods.flatMap CollectionMod.bytes)
      (mods.map CollectionMod.restored) := by
  induction mods with
  | nil => exact Reads.pure []
  | cons mod mods ih =>
      rw [List.flatMap_cons, List.map_cons, List.length_cons, readMods]
      have hrest := ih fun m hm => h m (by simp [hm])
      exact (CollectionMod.read_reads (h mod (by simp))).bind (hrest.map _)

theorem readMods_yields (n : Nat) :
    Yields (readMods n) fun mods => ∀ mod ∈ mods, mod.Storable := by
  induction n with
  | zero => exact .pure (by simp)
  | succ n ih =>
      refine CollectionMod.read_yields.bind fun mod hmod => ih.bind fun mods hmods => .pure ?_
      intro m hm
      rcases List.mem_cons.mp hm with rfl | hm
      · exact hmod
      · exact hmods m hm

/-- What the reader answers is the same as a mod only if the mod is storable. -/
theorem CollectionMod.SameAs.storable {mod mod' : CollectionMod} (h : mod.SameAs mod')
    (h' : mod'.Storable) : mod.Storable where
  name := h.name ▸ h'.name
  version := h.version ▸ h'.version
  link := h.link ▸ h'.link
  filename := h.filename ▸ h'.filename
  mods := h.mods ▸ h'.mods

/-! ## Collections -/

/-- A collection whose parts can be read back. -/
structure ModCollectionMetaData.Storable (m : ModCollectionMetaData) : Prop where
  localId : Clean m.localId
  title : Short m.title
  description : Short (m.description.getD [])
  mods : ∀ mod ∈ m.mods, mod.Storable

def ModCollectionMetaData.bytes (m : ModCollectionMetaData) : List UInt8 :=
  leBytes 4 collectionVersion ++ (textBytes m.localId ++ (sizedBytes m.title ++
    (sizedBytes (m.description.getD []) ++ (leBytes 4 (if m.isCosmetic then 1 else 0) ++
      (leBytes 4 m.mods.length ++ m.mods.flatMap CollectionMod.bytes)))))

def ModCollectionMetaData.restored (m : ModCollectionMetaData) : ModCollectionMetaData :=
  { m with description := some (m.description.getD [])
           mods := m.mods.map CollectionMod.restored }

theorem ModCollectionMetaData.read_yields :
    Yields ModCollectionMetaData.read ModCollectionMetaData.Storable := by
  refine (Yields.true _).bind fun version _ => ?_
  split
  · exact (Yields.throw (P := fun _ => False) _).bind fun _ h => h.elim
  · exact readTerminatedString_yields.bind fun _ hlocalId =>
      readSizedString_yields.bind fun _ htitle =>
        readSizedString_yields.bind fun _ hdescription =>
          (Yields.true _).bind fun _ _ => (Yields.true _).bind fun _ _ =>
            (readMods_yields _).bind fun _ hmods =>
              .pure ⟨hlocalId, htitle, hdescription, hmods⟩

theorem ModCollectionMetaData.read_reads {m : ModCollectionMetaData} (h : m.Storable)
    (hcount : m.mods.length < 2 ^ 32) :
    Reads ModCollectionMetaData.read m.bytes m.restored := by
  have hlast := (readMods_reads h.mods).map fun mods =>
    ({ m.restored with mods } : ModCollectionMetaData)
  have hcosmetic : (if m.isCosmetic then 1 else 0) < 2 ^ 32 := by split <;> decide
  have hflag : ((if m.isCosmetic then 1 else 0) == 1) = m.isCosmetic := by
    cases m.isCosmetic <;> rfl
  unfold ModCollectionMetaData.read bytes
  refine (readUint32_reads (by decide)).bind ?_
  simp only [ne_eq, not_true_eq_false, if_false]
  refine (readTerminatedString_reads h.localId).bind ?_
  refine (readSizedString_reads h.title).bind ?_
  refine (readSizedString_reads h.description).bind ?_
  refine (readUint32_reads hcosmetic).bind ?_
  refine (readUint32_reads hcount).bind ?_
  rw [hflag]
  exact hlast

/-! ## Writing -/

theorem put_puts (bs : List UInt8) : Puts capacity .rangeError (put bs) bs := fun _ _ => rfl

theorem writeTerminatedString_puts (s : DartString) :
    Puts capacity .rangeError (writeTerminatedString s) (textBytes s) :=
  (put_puts _).bind (put_puts _)

theorem writeSizedString_puts (s : DartString) :
    Puts capacity .rangeError (writeSizedString s) (sizedBytes s) :=
  (put_puts [_]).bind (put_puts _)

/-- The file names of a collection are base names already. -/
def BaseNames (basename : DartString → DartString) (m : ModCollectionMetaData) : Prop :=
  ∀ mod ∈ m.mods, ∀ filename, mod.filename = some filename → basename filename = filename

theorem CollectionMod.write_puts {mod : CollectionMod}
    (hbase : ∀ filename, mod.filename = some filename → basename filename = filename) :
    Puts capacity .rangeError (mod.write basename) mod.bytes := by
  have hname : mod.baseFilename basename = mod.filename.getD [] := by
    cases hf : mod.filename with
    | none => simp [baseFilename, hf]
    | some filename => simp [baseFilename, hf, hbase filename hf]
  unfold CollectionMod.write bytes
  rw [hname]
  exact (writeTerminatedString_puts _).bind <| (writeTerminatedString_puts _).bind <|
    (writeTerminatedString_puts _).bind <| (writeTerminatedString_puts _).bind <|
      (writeTerminatedString_puts _).bind (writeTerminatedString_puts _)

theorem ModCollectionMetaData.write_puts {m : ModCollectionMetaData} (hbase : BaseNames basename m) :
    Puts capacity .rangeError (m.write basename) m.bytes :=
  (put_puts _).bind <| (writeTerminatedString_puts _).bind <| (writeSizedString_puts _).bind <|
    (writeSizedString_puts _).bind <| (put_puts _).bind <| (put_puts _).bind <|
      Puts.forM fun mod hmod => CollectionMod.write_puts (hbase mod hmod)

theorem toBytes_eq {m : ModCollectionMetaData} (hbase : BaseNames basename m) :
    m.toBytes basename =
      if m.bytes.length ≤ capacity then .ok m.bytes else .error .rangeError := by
  have hw := ModCollectionMetaData.write_puts hbase [] (by simp)
  rw [List.length_nil, Nat.zero_add, List.nil_append] at hw
  unfold ModCollectionMetaData.toBytes
  rw [hw]
  split <;> rfl

/-! ## How much is written -/

/-- The lengths of a mod's texts, each with its terminator. -/
def CollectionMod.size (mod : CollectionMod) : Nat :=
  mod.name.length + mod.version.length + mod.link.length + (mod.filename.getD []).length +
    (if mod.isCollection then 4 else 5) + mod.joined.length + 6

/-- The lengths of a collection's texts, with the terminator of the id and the sizes,
the three numbers and the mods. -/
def ModCollectionMetaData.size (m : ModCollectionMetaData) : Nat :=
  m.localId.length + 1 + (m.title.length + 1) + ((m.description.getD []).length + 1) + 12 +
    (m.mods.map CollectionMod.size).sum

theorem length_textBytes (s : DartString) : (textBytes s).length = s.length + 1 := by
  simp [textBytes]

theorem length_sizedBytes (s : DartString) : (sizedBytes s).length = s.length + 1 := by
  simp [sizedBytes]

theorem CollectionMod.length_bytes (mod : CollectionMod) : mod.bytes.length = mod.size := by
  have hbool : (boolText mod.isCollection).length = if mod.isCollection then 4 else 5 := by
    cases mod.isCollection <;> rfl
  simp only [bytes, size, List.length_append, length_textBytes, hbool]
  omega

theorem ModCollectionMetaData.length_bytes (m : ModCollectionMetaData) :
    m.bytes.length = m.size := by
  have hmods : (m.mods.flatMap CollectionMod.bytes).length =
      (m.mods.map CollectionMod.size).sum := by
    rw [List.length_flatMap]
    simp only [CollectionMod.length_bytes]
  simp only [bytes, size, List.length_append, length_leBytes, length_textBytes,
    length_sizedBytes, hmods]
  omega

theorem length_mods_le (m : ModCollectionMetaData) : m.mods.length ≤ m.size := by
  have hsum : m.mods.length ≤ (m.mods.map CollectionMod.size).sum := by
    induction m.mods with
    | nil => simp
    | cons mod mods ih =>
        have hpos : 1 ≤ mod.size := by
          unfold CollectionMod.size
          omega
        simp only [List.length_cons, List.map_cons, List.sum_cons]
        omega
  unfold ModCollectionMetaData.size
  omega

/-! ## The codec -/

theorem ModCollectionMetaData.sameAs_restored (m : ModCollectionMetaData) :
    m.SameAs m.restored where
  localId := rfl
  title := rfl
  description := rfl
  isCosmetic := rfl
  mods := by
    show List.Forall₂ _ m.mods (m.mods.map CollectionMod.restored)
    rw [List.forall₂_map_right_iff]
    exact List.forall₂_same.mpr fun mod _ => ⟨rfl, rfl, rfl, rfl, rfl, rfl⟩

theorem storable_of_forall₂ {mods mods' : List CollectionMod}
    (h : List.Forall₂ CollectionMod.SameAs mods mods') (h' : ∀ mod ∈ mods', mod.Storable) :
    ∀ mod ∈ mods, mod.Storable := by
  induction h with
  | nil => simp
  | cons hsame _ ih =>
      simp only [List.forall_mem_cons] at h' ⊢
      exact ⟨hsame.storable h'.1, ih h'.2⟩

theorem ModCollectionMetaData.SameAs.storable {m m' : ModCollectionMetaData} (h : m.SameAs m')
    (h' : m'.Storable) : m.Storable where
  localId := h.localId ▸ h'.localId
  title := h.title ▸ h'.title
  description := h.description ▸ h'.description
  mods := storable_of_forall₂ h.mods h'.mods

/-- A collection with base names for its files is read back exactly if its parts can
be and it fits the writer's buffer. -/
theorem modCollection_roundTrips_iff (basename : DartString → DartString)
    (m : ModCollectionMetaData) (hbase : BaseNames basename m) (tail : List UInt8) :
    m.RoundTrips basename tail ↔ m.Storable ∧ m.size ≤ capacity := by
  unfold ModCollectionMetaData.RoundTrips
  rw [toBytes_eq hbase, m.length_bytes]
  constructor
  · rintro ⟨bytes, m', hbytes, hread, hsame⟩
    split at hbytes
    next hfit =>
        refine ⟨hsame.storable ?_, hfit⟩
        unfold ModCollectionMetaData.fromBytes at hread
        cases hrun : ModCollectionMetaData.read (bytes ++ tail) with
        | error e =>
            rw [hrun] at hread
            cases hread
        | ok p =>
            rw [hrun] at hread
            cases hread
            exact ModCollectionMetaData.read_yields _ p.1 p.2 hrun
    · cases hbytes
  · rintro ⟨hstorable, hfit⟩
    have hcount : m.mods.length < 2 ^ 32 := by
      have hle := length_mods_le m
      have hcap : capacity < 2 ^ 32 := by decide
      omega
    refine ⟨m.bytes, m.restored, if_pos hfit, ?_, m.sameAs_restored⟩
    unfold ModCollectionMetaData.fromBytes
    rw [ModCollectionMetaData.read_reads hstorable hcount tail]
    rfl

/-- `basename` where the separator is a slash and the name does not end in one. -/
def posixBasename (path : DartString) : DartString :=
  (path.reverse.takeWhile (· ≠ 0x2f)).reverse

/-- A collection of one Frosty collection `A` in the file `a.b`, with the mods `b` and
an unnamed one. -/
def frostyCollection : ModCollectionMetaData :=
  { localId := [0x31], title := [0xe9], description := none, isCosmetic := true,
    mods := [{ name := [0x41], version := [], link := [], isCollection := true,
               mods := some [[0x62], []], filename := some [0x61, 0x2e, 0x62] }] }

theorem frostyCollection_storable : frostyCollection.Storable where
  localId := by decide
  title := by decide
  description := by decide
  mods := by
    intro mod hmod
    rw [frostyCollection, List.mem_singleton] at hmod
    subst hmod
    exact {
      name := by decide
      version := by decide
      link := by decide
      filename := by decide
      mods := ⟨_, rfl, by decide⟩ }

theorem modCollection_roundTrips_frosty :
    BaseNames posixBasename frostyCollection ∧ frostyCollection.RoundTrips posixBasename [] := by
  have hbase : BaseNames posixBasename frostyCollection := by
    intro mod hmod filename hfilename
    rw [frostyCollection, List.mem_singleton] at hmod
    subst hmod
    cases hfilename
    decide
  refine ⟨hbase, (modCollection_roundTrips_iff _ _ hbase []).mpr
    ⟨frostyCollection_storable, ?_⟩⟩
  decide

/-- A collection of one plain mod, which has no list of sub-mods. -/
def plainCollection : ModCollectionMetaData :=
  { localId := [0x31], title := [0x54],
    mods := [{ name := [0x41], version := [0x31], link := [] }] }

/-- The mod is read with a list of one unnamed sub-mod. -/
theorem plainMod_not_restored :
    BaseNames posixBasename plainCollection ∧ ¬ plainCollection.RoundTrips posixBasename [] := by
  constructor
  · intro mod hmod filename hfilename
    rw [plainCollection, List.mem_singleton] at hmod
    subst hmod
    cases hfilename
  · rintro ⟨bytes, m', hbytes, hread, hsame⟩
    have hrun : (plainCollection.toBytes posixBasename).bind
        (fun bytes => (ModCollectionMetaData.fromBytes (bytes ++ [])).map fun m =>
          m.mods.map CollectionMod.mods) = .ok [some [[]]] := by
      decide
    rw [hbytes] at hrun
    simp only [Except.bind, hread, Except.map, Except.ok.injEq] at hrun
    have hmods := hsame.mods
    generalize m'.mods = mods' at hmods hrun
    cases hmods with
    | cons hmod hrest =>
        cases hrest
        rw [List.map_cons, hmod.mods] at hrun
        revert hrun
        decide

end Kyber.Collection
