import Kyber.Proofs.FrostyFormat
import Kyber.Collection.FrostyMod
import Kyber.Proofs.FrostyLoad

/-!
# The launcher reads the format of mod files

The launcher's reader keeps track of the format: it reads what is in the format, and where it
answers although the file is not in it, it has gone past the end of the file, which the number
of bytes that it has counted shows, or one of its answers says that something is invalid.
-/

namespace Kyber.Collection.ModReader

open Kyber.Lib Kyber.Frosty

/-! ## What the launcher makes of a mod -/

def resourceType (k : Kind) : ModResourceType := ModResourceType.values.getD k.number .invalid

def baseResource (r : Resource) : BaseModResource where
  type := resourceType r.kind
  resourceIndex := r.index.toInt
  name := r.name.map fromCharCodes
  sha1 := r.payload.map (·.sha1)
  size := r.payload.map (·.size.toInt64.toInt)
  flags := r.payload.map (·.flags.toNat)
  handlerHash := r.payload.map (·.handlerHash.toInt32.toInt)
  userData := ((r.payload.bind (·.userData)).map fromCharCodes).getD []
  bundlesToAdd := r.bundles.map UInt32.toNat

theorem baseResource_valid (r : Resource) : (baseResource r).type ≠ .invalid := by
  show resourceType r.kind ≠ .invalid
  rw [resourceType]
  cases r.kind <;> simp [Kind.number, ModResourceType.values]

def modDetails (d : Details) : Frosty.FrostyModDetails where
  name := fromCharCodes d.title
  author := fromCharCodes d.author
  category := fromCharCodes d.category
  version := fromCharCodes d.version
  description := fromCharCodes d.description
  link := (d.link.filter (!·.isEmpty)).map fromCharCodes

def headOf (h : Header) : Head where
  version := h.version.toNat
  dataOffset := h.dataOffset.toInt64
  dataCount := h.dataCount.toNat
  gameVersion := h.gameVersion.toNat

/-! ## Going forward -/

section Advances

variable {α : Type} (buffers : Buffers)

instance (m : Frosty.FileM α) : Advances Reader.offset (ofFile m) where
  le s a s' h := by
    rw [ofFile] at h
    split at h
    · cases h
      exact Nat.le_refl _
    · cases h

instance (n : Nat) : Advances Reader.offset (advance n) where
  le s a s' h := by
    cases h
    exact Nat.le_add_right _ _

instance : Advances Reader.offset (get : ReaderM Reader) where
  le s a s' h := by
    cases h
    exact Nat.le_refl _

instance (n : Nat) : Advances Reader.offset (readNumber buffers n) := by
  unfold readNumber
  infer_instance

instance : Advances Reader.offset (readByte buffers) := by
  unfold readByte
  infer_instance

instance : Advances Reader.offset (readInt buffers) := by
  unfold readInt
  infer_instance

instance : Advances Reader.offset (readLong buffers) := by
  unfold readLong
  infer_instance

instance (n : Nat) (message : String) : Advances Reader.offset (readChecked buffers n message) := by
  unfold readChecked
  infer_instance

instance : Advances Reader.offset (readUint64 buffers) := by
  unfold readUint64
  infer_instance

instance : Advances Reader.offset (readUint32 buffers) := by
  unfold readUint32
  infer_instance

instance (size : Int) : Advances Reader.offset (readUint8List size) := by
  unfold readUint8List
  infer_instance

instance : Advances Reader.offset readSha1 := by
  unfold readSha1
  infer_instance

instance (rounds : Nat) (bytes : List UInt8) :
    Advances Reader.offset (readUntilZero buffers rounds bytes) := by
  induction rounds generalizing bytes with
  | zero => exact inferInstanceAs (Advances _ (throw _))
  | succ rounds ih =>
      unfold readUntilZero
      infer_instance

instance : Advances Reader.offset (readTerminatedString buffers) := by
  unfold readTerminatedString
  infer_instance

instance : Advances Reader.offset (readSizedString buffers) := by
  unfold readSizedString
  infer_instance

variable (readerVersion : Nat)

instance (index : Int) : Advances Reader.offset (readName buffers readerVersion index) := by
  unfold readName
  infer_instance

instance : Advances Reader.offset (readUserData buffers readerVersion) := by
  unfold readUserData
  infer_instance

instance (resource : BaseModResource) :
    Advances Reader.offset (readData buffers readerVersion resource) := by
  unfold readData
  infer_instance

instance (index : Int) : Advances Reader.offset (readBundles buffers readerVersion index) := by
  unfold readBundles
  infer_instance

set_option synthInstance.maxSize 1000 in
instance (type : ModResourceType) : Advances Reader.offset (readType buffers type) := by
  cases type <;> unfold readType <;> dsimp only <;> infer_instance

instance (type : ModResourceType) :
    Advances Reader.offset (BaseModResource.read buffers type readerVersion) := by
  unfold BaseModResource.read
  infer_instance

instance : Advances Reader.offset (readResourceEntry buffers readerVersion) := by
  unfold readResourceEntry
  infer_instance

instance (limit : Option Int) : Advances Reader.offset (readResourceList buffers limit) := by
  unfold readResourceList
  infer_instance

instance : Advances Reader.offset (readLink buffers readerVersion) := by
  unfold readLink
  infer_instance

set_option synthInstance.maxSize 1000 in
instance : Advances Reader.offset (readHead buffers) := by
  unfold readHead
  infer_instance

set_option synthInstance.maxSize 1000 in
instance : Advances Reader.offset (readDetails buffers readerVersion) := by
  unfold readDetails
  infer_instance

end Advances

/-! ## Numbers and strings -/

/-- `r₀` has got to a place of its file from which this is left, and has counted so far. -/
structure Reader.At (r₀ r : Reader) (rest : List UInt8) : Prop where
  reader_eq : r = { r₀ with
    file := { content := r₀.file.content, position := r.offset, closed := false }
    offset := r.offset }
  length_eq : r.offset + rest.length = r₀.file.content.length
  rest_eq : r₀.file.content.drop r.offset = rest

/-- A reader that has read so many bytes. -/
def Reader.moved (r : Reader) (n : Nat) : Reader :=
  { r with file := { r.file with position := r.file.position + n } }

variable {r₀ r : Reader} {rest : List UInt8}

theorem Reader.At.skip (h : r₀.At r rest) {n : Nat} (hn : n ≤ rest.length) :
    r₀.At { r.moved n with offset := r.offset + n } (rest.drop n) := by
  have hlength := h.length_eq
  refine ⟨?_, ?_, ?_⟩
  · rw [h.reader_eq]
    rfl
  · rw [List.length_drop]
    show r.offset + n + (rest.length - n) = _
    omega
  · show r₀.file.content.drop (r.offset + n) = _
    rw [← List.drop_drop, h.rest_eq]

theorem Reader.At.readSync (h : r₀.At r rest) (n : Nat) :
    ofFile (Frosty.readSync n) r = .ok (rest.take n, r.moved (rest.take n).length) := by
  have hclosed : r.file.closed = false := by rw [h.reader_eq]
  have hrest : r.file.content.drop r.file.position = rest := by
    rw [← h.rest_eq, h.reader_eq]
  simp only [ofFile, Frosty.readSync, hclosed, hrest, Bool.false_eq_true, if_false, Reader.moved]

/-- Reading in the launcher, of a file. -/
abbrev Keeps {α β : Type} (r₀ : Reader) (m : ReaderM β) (p : ParseM α) (f : α → β)
    (Bad : β → Prop) : Prop :=
  Tracks r₀.At Reader.offset r₀.file.content.length m p f Bad

abbrev Sure {β : Type} : β → Prop := fun _ => False

/-- Bytes are read and counted, in whatever order: what has gone past the end has counted more
than the file has. -/
theorem keeps_bytes {β : Type} {m : ReaderM β} {f : List UInt8 → β} {n : Nat}
    (hread : ∀ r rest, r₀.At r rest → n ≤ rest.length →
      m r = .ok (f (rest.take n), { r.moved n with offset := r.offset + n }))
    (hcount : ∀ r b r', m r = .ok (b, r') → r'.offset = r.offset + n) :
    Keeps r₀ m (bytes n) f Sure where
  follows := by
    intro r rest a rest' hr ha
    rw [bytes_apply] at ha
    split at ha
    · next hn =>
        cases ha
        refine ⟨fun b hb => ?_, fun e he => by cases he⟩
        cases hb
        exact ⟨_, hread r rest hr hn, hr.skip hn⟩
    · cases ha
  fails := by
    intro r rest e hr he b r' hm
    rw [bytes_apply] at he
    split at he
    · cases he
    · next hn =>
        have hlength := hr.length_eq
        have hoffset := hcount r b r' hm
        omega

theorem ofFile_offset {α : Type} {m : Frosty.FileM α} {a : α} {r r' : Reader}
    (h : ofFile m r = .ok (a, r')) : r'.offset = r.offset := by
  rw [ofFile] at h
  split at h
  · cases h
    rfl
  · cases h

variable (buffers : Buffers)

theorem buffer_take {n : Nat} (hn : n ≤ rest.length) :
    buffers.buffer n (rest.take n) = rest.take n := by
  have hbuffer := buffers.complete (rest.take n)
  rwa [List.length_take_of_le hn] at hbuffer

theorem readNumber_keeps (n : Nat) : Keeps r₀ (readNumber buffers n) (number n) id Sure := by
  refine Tracks.map_right (keeps_bytes ?_ ?_)
  · intro r rest hr hn
    have hlength : (rest.take n).length = n := List.length_take_of_le hn
    rw [readNumber, bind_apply_answer (hr.readSync n), buffer_take buffers hn, hlength,
      if_neg (Nat.lt_irrefl n), List.take_take, Nat.min_self]
    rfl
  · intro r b r' h
    obtain ⟨value, r₁, hread, h⟩ := bind_apply_eq_ok.mp h
    split at h
    · cases h
    · cases h
      exact congrArg (· + n) (ofFile_offset hread)

theorem readChecked_keeps (n : Nat) (message : String) :
    Keeps r₀ (readChecked buffers n message) (number n) id Sure := by
  refine Tracks.map_right (keeps_bytes ?_ ?_)
  · intro r rest hr hn
    have hlength : (rest.take n).length = n := List.length_take_of_le hn
    rw [readChecked, bind_apply_answer (hr.readSync n), buffer_take buffers hn, hlength,
      if_neg (Nat.lt_irrefl n), List.take_take, Nat.min_self]
    rfl
  · intro r b r' h
    obtain ⟨value, r₁, hread, h⟩ := bind_apply_eq_ok.mp h
    obtain ⟨u, r₂, hadvance, h⟩ := bind_apply_eq_ok.mp h
    cases hadvance
    split at h
    · cases h
    · cases h
      exact congrArg (· + n) (ofFile_offset hread)

theorem readByte_keeps : Keeps r₀ (readByte buffers) (number 1) id Sure :=
  readNumber_keeps buffers 1

theorem readInt_keeps : Keeps r₀ (readInt buffers) word (fun w => w.toInt32.toInt) Sure :=
  Tracks.map_right ((readNumber_keeps buffers 4).map_left _)

theorem readLong_keeps : Keeps r₀ (readLong buffers) long (fun l => l.toInt64.toInt) Sure :=
  Tracks.map_right ((readNumber_keeps buffers 8).map_left _)

theorem readUint64_keeps : Keeps r₀ (readUint64 buffers) long UInt64.toInt64 Sure :=
  Tracks.map_right ((readChecked_keeps buffers 8 _).map_left _)

theorem readUint32_keeps : Keeps r₀ (readUint32 buffers) word UInt32.toNat Sure := by
  refine Tracks.map_right ((readChecked_keeps buffers 4 _).congr (number_lt 4) fun n hn => ?_)
  rw [UInt32.toNat_ofNat_of_lt' hn]
  rfl

theorem readSha1_keeps : Keeps r₀ readSha1 (bytes 20) id Sure := by
  refine keeps_bytes ?_ ?_
  · intro r rest hr hn
    have hlength : (rest.take 20).length = 20 := List.length_take_of_le hn
    rw [readSha1, bind_apply_answer (hr.readSync 20), hlength]
    rfl
  · intro r b r' h
    obtain ⟨value, r₁, hread, h⟩ := bind_apply_eq_ok.mp h
    cases h
    exact congrArg (· + 20) (ofFile_offset hread)

theorem readUint8List_keeps (n : Nat) : Keeps r₀ (readUint8List n) (bytes n) id Sure := by
  have hpos : ¬ (n : Int) < 0 := by omega
  refine keeps_bytes ?_ ?_
  · intro r rest hr hn
    have hlength : (rest.take n).length = n := List.length_take_of_le hn
    rw [readUint8List, if_neg hpos, Int.toNat_natCast, bind_apply_answer (hr.readSync n), hlength,
      Nat.sub_self, List.replicate_zero, List.append_nil]
    rfl
  · intro r b r' h
    rw [readUint8List, if_neg hpos, Int.toNat_natCast] at h
    obtain ⟨value, r₁, hread, h⟩ := bind_apply_eq_ok.mp h
    cases h
    exact congrArg (· + n) (ofFile_offset hread)

theorem readUntilZero_keeps (rounds : Nat) (acc : List UInt8) (r : Reader) (rest : List UInt8)
    (hr : r₀.At r rest) (hlt : rest.length < rounds) :
    (∀ str rest', string rest = .ok (str, rest') →
      ∃ r', readUntilZero buffers rounds acc r = .ok (acc ++ str, r') ∧ r₀.At r' rest') ∧
    ∀ e, string rest = .error e → ∀ b r', readUntilZero buffers rounds acc r = .ok (b, r') →
      r₀.file.content.length < r'.offset := by
  induction rounds generalizing acc r rest with
  | zero => exact absurd hlt (Nat.not_lt_zero _)
  | succ rounds ih =>
      cases rest with
      | nil =>
          refine ⟨?_, ?_⟩
          · intro str rest' h
            cases h
          · intro e he b r' h
            obtain ⟨byte, r₁, hbyte, h⟩ := bind_apply_eq_ok.mp h
            rcases (readByte_keeps buffers).fails r [] _ hr rfl byte r₁ hbyte with hpast | hfalse
            · exact Nat.lt_of_lt_of_le hpast (Advances.le (m := if byte = 0 then pure acc else
                readUntilZero buffers rounds (acc ++ [UInt8.ofNat byte])) r₁ b r' h)
            · exact hfalse.elim
      | cons byte tail =>
          obtain ⟨r₁, hbyte, hr₁⟩ :=
            ((readByte_keeps buffers).follows r _ _ _ hr (number_one byte tail)).1 byte.toNat rfl
          rw [readUntilZero, bind_apply_answer hbyte]
          by_cases hzero : byte = 0
          · subst hzero
            rw [string_zero]
            refine ⟨?_, ?_⟩
            · intro str rest' h
              cases h
              exact ⟨r₁, by rw [List.append_nil]; rfl, hr₁⟩
            · intro e he
              cases he
          · have hnat : byte.toNat ≠ 0 := fun h => hzero (UInt8.toNat_inj.mp h)
            have ih := ih (acc ++ [byte]) r₁ tail hr₁ (Nat.lt_of_succ_lt_succ hlt)
            rw [if_neg hnat, UInt8.ofNat_toNat, string_cons hzero]
            cases hs : string tail with
            | error e =>
                refine ⟨?_, fun e' _ => ih.2 e hs⟩
                intro str rest' h
                cases h
            | ok p =>
                refine ⟨?_, ?_⟩
                · intro str rest' h
                  cases h
                  obtain ⟨r', hread, hr'⟩ := ih.1 p.1 p.2 hs
                  exact ⟨r', by rw [hread, List.append_assoc]; rfl, hr'⟩
                · intro e' he
                  cases he

theorem readTerminatedString_keeps :
    Keeps r₀ (readTerminatedString buffers) string fromCharCodes Sure := by
  have hrounds : ∀ {r rest}, r₀.At r rest →
      r.file.content.length - r.file.position + 1 = rest.length + 1 := by
    intro r rest hr
    have hlength := hr.length_eq
    rw [hr.reader_eq]
    show r₀.file.content.length - r.offset + 1 = _
    omega
  constructor
  · intro r rest str rest' hr hs
    refine ⟨fun b hb => ?_, fun e he => by cases he⟩
    cases hb
    obtain ⟨r', hread, hr'⟩ := (readUntilZero_keeps buffers (rest.length + 1) [] r rest hr
      (Nat.lt_succ_self _)).1 str rest' hs
    refine ⟨r', ?_, hr'⟩
    rw [readTerminatedString, get_bind_apply, hrounds hr,
      bind_apply_answer hread]
    rfl
  · intro r rest e hr he b r' h
    obtain ⟨r₁, r₂, hget, h⟩ := bind_apply_eq_ok.mp h
    cases hget
    obtain ⟨str, r₃, hread, h⟩ := bind_apply_eq_ok.mp h
    cases h
    rw [hrounds hr] at hread
    exact .inl ((readUntilZero_keeps buffers (rest.length + 1) [] r rest hr
      (Nat.lt_succ_self _)).2 e he str _ hread)

theorem readSizedString_keeps :
    Keeps r₀ (readSizedString buffers) sizedString fromCharCodes Sure := by
  refine (readByte_keeps buffers).bind fun n => keeps_bytes ?_ ?_
  · intro r rest hr hn
    have hlength : (rest.take n).length = n := List.length_take_of_le hn
    rw [id, bind_apply_answer (hr.readSync n), hlength]
    rfl
  · intro r b r' h
    obtain ⟨value, r₁, hread, h⟩ := bind_apply_eq_ok.mp h
    cases h
    exact congrArg (· + n) (ofFile_offset hread)

theorem optional_keeps {present present' : Prop} [Decidable present] [Decidable present']
    (h : present ↔ present') :
    Keeps r₀ (if present then do let str ← readTerminatedString buffers; return some str
        else return none)
      (Frosty.optional present' string) (Option.map fromCharCodes) Sure := by
  by_cases hpresent : present
  · rw [Frosty.optional, if_pos hpresent, if_pos (h.mp hpresent)]
    exact (readTerminatedString_keeps buffers).bind fun str => Tracks.pure rfl
  · rw [Frosty.optional, if_neg hpresent, if_neg (h.not.mp hpresent)]
    exact Tracks.pure rfl

/-! ## Resources -/

variable (version : UInt32)

theorem index_ne_iff {index : UInt32} : index.toInt32.toInt ≠ -1 ↔ index.toInt32 ≠ -1 :=
  (Int32.toInt_inj (x := index.toInt32) (y := -1)).not

theorem three_lt_iff : version.toNat > 3 ↔ 3 < version :=
  (UInt32.lt_iff_toNat_lt (a := 3) (b := version)).symm

theorem le_three_iff : version.toNat ≤ 3 ↔ ¬ 3 < version := by
  rw [← three_lt_iff, Nat.not_lt]

theorem readName_keeps (index : UInt32) :
    Keeps r₀ (readName buffers version.toNat index.toInt32.toInt)
      (Frosty.optional (index.toInt32 ≠ -1 ∨ 3 < version) string) (Option.map fromCharCodes)
      Sure := by
  refine optional_keeps buffers ?_
  rw [index_ne_iff, three_lt_iff, le_three_iff]
  tauto

theorem readUserData_keeps :
    Keeps r₀ (readUserData buffers version.toNat) (Frosty.optional (3 ≤ version) string)
      (fun str => (str.map fromCharCodes).getD []) Sure := by
  have hiff : version.toNat ≥ 3 ↔ 3 ≤ version :=
    (UInt32.le_iff_toNat_le (a := 3) (b := version)).symm
  rw [readUserData, Frosty.optional]
  by_cases h : 3 ≤ version
  · rw [if_pos (hiff.mpr h), if_pos h]
    exact Tracks.map_right (readTerminatedString_keeps buffers)
  · rw [if_neg (hiff.not.mpr h), if_neg h]
    exact Tracks.pure rfl

theorem readData_keeps (type : ModResourceType) (index : UInt32) (name : Option DartString) :
    Keeps r₀ (readData buffers version.toNat
        { type, resourceIndex := index.toInt32.toInt, name }) (payload version index.toInt32)
      (fun p => {
        type, resourceIndex := index.toInt32.toInt, name
        sha1 := p.map (·.sha1)
        size := p.map (·.size.toInt64.toInt)
        flags := p.map (·.flags.toNat)
        handlerHash := p.map (·.handlerHash.toInt32.toInt)
        userData := ((p.bind (·.userData)).map fromCharCodes).getD [] }) Sure := by
  rw [readData, payload]
  by_cases hindex : index.toInt32 = -1
  · rw [if_neg fun h => index_ne_iff.mp h hindex, if_pos hindex]
    exact Tracks.pure rfl
  · rw [if_pos (index_ne_iff.mpr hindex), if_neg hindex]
    refine readSha1_keeps.bind fun sha1 => (readLong_keeps buffers).bind fun size => ?_
    refine ((readByte_keeps buffers).congr (number_lt 1) (g := fun n => (UInt8.ofNat n).toNat)
      fun n hn => (UInt8.toNat_ofNat_of_lt' hn).symm).bind fun flags => ?_
    exact (readInt_keeps buffers).bind fun handlerHash =>
      (readUserData_keeps buffers version).bind fun userData => Tracks.pure rfl

theorem readMany_keeps {α β : Type} {m : ReaderM β} [Advances Reader.offset m] {p : ParseM α}
    {f : α → β} (hm : Keeps r₀ m p f Sure) (n : Nat) :
    Keeps r₀ (readMany m n) (readMany p n) (List.map f) Sure := by
  refine (hm.readMany n).weaken fun bs hbs => ?_
  obtain ⟨b, -, hfalse⟩ := hbs
  exact hfalse

/-- Hashes behind their count. -/
theorem readHashes_keeps :
    Keeps r₀ (do let count ← readInt buffers; readMany (readUint32 buffers) count.toNat) words
      (List.map UInt32.toNat) Sure :=
  (readInt_keeps buffers).bind fun _ => readMany_keeps (readUint32_keeps buffers) _

theorem readBundles_keeps (index : UInt32) :
    Keeps r₀ (readBundles buffers version.toNat index.toInt32.toInt)
      (bundleLists version index.toInt32) (fun lists => lists.2.map UInt32.toNat) Sure := by
  rw [readBundles, bundleLists]
  by_cases hversion : 3 < version
  · rw [if_neg fun h => (le_three_iff version).mp h.1 hversion,
      if_pos ((three_lt_iff version).mpr hversion), if_pos hversion]
    exact Tracks.map_right (readHashes_keeps buffers)
  · rw [if_neg (c := version.toNat > 3) ((three_lt_iff version).not.mpr hversion), if_neg hversion]
    by_cases hindex : index.toInt32 = -1
    · rw [if_neg fun h => index_ne_iff.mp h.2 hindex, if_pos hindex]
      exact Tracks.pure rfl
    · rw [if_pos ⟨(le_three_iff version).mpr hversion, index_ne_iff.mpr hindex⟩, if_neg hindex,
        words, bind_assoc]
      refine (readInt_keeps buffers).bind fun count => ?_
      refine (readMany_keeps (readInt_keeps buffers) _).bind fun skipped => ?_
      rw [bind_assoc]
      refine (readInt_keeps buffers).bind fun count => ?_
      exact Tracks.map_right (readMany_keeps (readUint32_keeps buffers) _)

/-- The metadata are passed over. -/
theorem readMeta_keeps :
    Keeps r₀ (do let size ← readInt buffers; let _ ← readUint8List size; return ()) block
      (fun _ => ()) Sure := by
  refine (readInt_keeps buffers).bind fun size => ?_
  by_cases hneg : size.toInt32 < 0
  · have hlt : size.toInt32.toInt < 0 := Int32.lt_iff_toInt_lt.mp hneg
    rw [if_pos hneg]
    refine Tracks.throw _ fun r b r' h => ?_
    rw [readUint8List, if_pos hlt] at h
    cases h
  · have hcast : size.toInt32.toInt = (size.toInt32.toNatClampNeg : Int) := by
      have hnonneg : ¬ size.toInt32.toInt < 0 := fun h => hneg (Int32.lt_iff_toInt_lt.mpr h)
      show _ = ((size.toInt32.toInt.toNat : Nat) : Int)
      omega
    rw [if_neg hneg, hcast]
    exact (readUint8List_keeps size.toInt32.toNatClampNeg).map_left fun _ => ()

theorem readType_keeps {n : Nat} (hn : n ≤ 4) :
    Keeps r₀ (readType buffers (ModResourceType.values.getD n .invalid)) (kind n) (fun _ => ())
      Sure := by
  have hword : Keeps r₀ (readUint32 buffers) word UInt32.toNat Sure := readUint32_keeps buffers
  have hint : Keeps r₀ (readInt buffers) word (fun w => w.toInt32.toInt) Sure :=
    readInt_keeps buffers
  match n, hn with
  | 0, _ => exact Tracks.pure rfl
  | 1, _ => exact Tracks.pure rfl
  | 2, _ =>
      exact hword.bind fun _ => (readUint64_keeps buffers).bind fun _ =>
        Tracks.map_right (readMeta_keeps buffers)
  | 3, _ =>
      exact hword.bind fun _ => hword.bind fun _ => hword.bind fun _ => hword.bind fun _ =>
        hint.bind fun _ => hint.bind fun _ => Tracks.pure rfl
  | 4, _ =>
      exact (readTerminatedString_keeps buffers).bind fun _ => hint.bind fun _ => Tracks.pure rfl

theorem readResource_keeps :
    Keeps r₀ (readResourceEntry buffers version.toNat) (resource version) baseResource
      fun r => r.type = .invalid := by
  refine (readByte_keeps buffers).bind fun n => ?_
  by_cases hn : n > 4
  · rw [if_pos hn, id, if_pos hn]
    refine Tracks.throw _ fun r b r' h => ?_
    cases h
    rfl
  rw [if_neg hn, id, if_neg hn]
  have htype : Keeps r₀
      (BaseModResource.read buffers (ModResourceType.values.getD n .invalid) version.toNat)
      (do
        let index ← word
        let name ← Frosty.optional (index.toInt32 ≠ -1 ∨ 3 < version) string
        let payload ← payload version index.toInt32
        let lists ← bundleLists version index.toInt32
        let kind ← kind n
        return { index := index.toInt32, name, payload, skipped := lists.1, bundles := lists.2, kind })
      (fun r => { baseResource r with type := ModResourceType.values.getD n .invalid })
      fun r => r.type = .invalid := by
    refine (readInt_keeps buffers).bind fun index => (readName_keeps buffers version index).bind
      fun name => (readData_keeps buffers version _ index _).bind fun p => ?_
    exact (readBundles_keeps buffers version index).bind fun lists =>
      (readType_keeps buffers (by omega)).bind fun k => Tracks.pure rfl
  refine htype.congr (P := fun r => r.kind.number = n) ?_ ?_
  · exact (Yields.true _).bind fun _ _ => (Yields.true _).bind fun _ _ =>
      (Yields.true _).bind fun _ _ => (Yields.true _).bind fun _ _ =>
        (kind_number n).bind fun k hk => Yields.pure hk
  · intro r hr
    rw [← hr]
    rfl

/-- The resources of a reader that is at a version. -/
theorem readResources_keeps (hversion : r₀.readerVersion = version.toNat) :
    Keeps r₀ (readResourceList buffers none) (resources version) (List.map baseResource)
      fun rs => ∃ r ∈ rs, r.type = .invalid := by
  refine (readInt_keeps buffers).bind fun count => ?_
  have hone : Keeps r₀ (readResourceEntry buffers version.toNat) (resource version) baseResource
      fun r => r.type = .invalid := readResource_keeps buffers version
  have hmany := hone.readMany count.toInt32.toNatClampNeg
  -- The version is what it was in the beginning.
  have hget : ∀ r rest, r₀.At r rest →
      ((get : ReaderM Reader) >>= fun r => readMany (readResourceEntry buffers r.readerVersion)
        (maxResources count.toInt32.toInt none).toNat) r =
      readMany (readResourceEntry buffers version.toNat) count.toInt32.toNatClampNeg r := by
    intro r rest hr
    have hr₀ : r.readerVersion = version.toNat := by rw [hr.reader_eq, ← hversion]
    rw [get_bind_apply, hr₀]
    rfl
  constructor
  · intro r rest rs rest' hr hrs
    rw [hget r rest hr]
    exact hmany.follows r rest rs rest' hr hrs
  · intro r rest e hr he rs r' h
    rw [hget r rest hr] at h
    exact hmany.fails r rest e hr he rs r' h

/-! ## Mods -/

theorem readLink_keeps :
    Keeps r₀ (readLink buffers version.toNat) (Frosty.optional (5 ≤ version) string)
      (fun link => (link.filter (!·.isEmpty)).map fromCharCodes) Sure := by
  have hiff : version.toNat ≥ 5 ↔ 5 ≤ version :=
    (UInt32.le_iff_toNat_le (a := 5) (b := version)).symm
  rw [readLink, Frosty.optional]
  by_cases h : 5 ≤ version
  · rw [if_pos (hiff.mpr h), if_pos h]
    refine (readTerminatedString_keeps buffers).bind fun link => Tracks.pure ?_
    cases link <;> rfl
  · rw [if_neg (hiff.not.mpr h), if_neg h]
    exact Tracks.pure rfl

/-- Letters without their case, in code units. -/
theorem toLowerCase_fromCharCodes (bs : List UInt8) :
    toLowerCase (fromCharCodes bs) = fromCharCodes (bs.map lower) := by
  rw [toLowerCase, fromCharCodes, fromCharCodes, List.map_map, List.map_map]
  refine List.map_congr_left fun b _ => ?_
  have hiff : 0x41 ≤ b.toUInt16 ∧ b.toUInt16 ≤ 0x5a ↔ 0x41 ≤ b ∧ b ≤ 0x5a := by
    simp [UInt16.le_iff_toNat_le, UInt8.le_iff_toNat_le]
  by_cases h : 0x41 ≤ b ∧ b ≤ 0x5a
  · have hle : b.toNat ≤ 0x5a := UInt8.le_iff_toNat_le.mp h.2
    rw [Function.comp_apply, Function.comp_apply, lower, if_pos (hiff.mpr h), if_pos h]
    refine UInt16.toNat_inj.mp ?_
    simp only [UInt16.toNat_add, UInt8.toNat_toUInt16, UInt8.toNat_add, UInt16.reduceToNat,
      UInt8.reduceToNat]
    omega
  · rw [Function.comp_apply, Function.comp_apply, lower, if_neg (hiff.not.mpr h), if_neg h]

theorem fromCharCodes_injective : Function.Injective fromCharCodes := by
  refine List.map_injective_iff.mpr fun b c h => ?_
  have hnat := congrArg UInt16.toNat h
  exact UInt8.toNat_inj.mp (by simpa using hnat)

theorem magic_eq_iff {l : UInt64} : l.toInt64 = kFrostyMagic ↔ l = magic :=
  ⟨fun h => congrArg Int64.toUInt64 h, fun h => congrArg UInt64.toInt64 h⟩

theorem readHead_keeps :
    Keeps r₀ (readHead buffers) header (fun h => some (headOf h)) fun h => h = none := by
  refine (readUint64_keeps buffers).bind fun magic' => (readUint32_keeps buffers).bind
    fun version => ?_
  have hiff : magic'.toInt64 ≠ kFrostyMagic ∨ version.toNat < kFrostyVersion ↔
      magic' ≠ magic ∨ version < 1 := by
    rw [Ne, magic_eq_iff, kFrostyVersion, UInt32.lt_iff_toNat_lt]
    rfl
  by_cases hmod : magic' ≠ magic ∨ version < 1
  · rw [if_pos hmod, if_pos (hiff.mpr hmod)]
    refine Tracks.throw _ fun r b r' h => ?_
    cases h
    rfl
  rw [if_neg hmod, if_neg (hiff.not.mpr hmod)]
  refine (readUint64_keeps buffers).bind fun dataOffset => (readUint32_keeps buffers).bind
    fun dataCount => (readSizedString_keeps buffers).bind fun profile' => ?_
  have hprofile : toLowerCase (fromCharCodes profile') = kProfile ↔ profile'.map lower = profile := by
    have hk : kProfile = fromCharCodes profile := rfl
    rw [toLowerCase_fromCharCodes, hk, fromCharCodes_injective.eq_iff]
  by_cases hgame : profile'.map lower ≠ profile
  · rw [if_pos hgame, if_pos (hprofile.not.mpr hgame)]
    refine Tracks.throw _ fun r b r' h => ?_
    cases h
    rfl
  rw [if_neg hgame, if_neg (hprofile.not.not.mpr hgame)]
  exact (readUint32_keeps buffers).bind fun gameVersion => Tracks.pure rfl

theorem readDetails_keeps :
    Keeps r₀ (readDetails buffers version.toNat) (details version) modDetails Sure := by
  have hstring : Keeps r₀ (readTerminatedString buffers) string fromCharCodes Sure :=
    readTerminatedString_keeps buffers
  exact hstring.bind fun _ => hstring.bind fun _ => hstring.bind fun _ => hstring.bind fun _ =>
    hstring.bind fun _ => (readLink_keeps buffers version).bind fun _ => Tracks.pure rfl

end Kyber.Collection.ModReader

/-!
## The launcher and the game read the same mods

Whatever bytes a file has: if the launcher shows it as a mod and gets through its resources
within the file, without one that it finds invalid, then there is a mod of the format of which
it has shown every part, and the game makes of the file what it makes of that mod. The game may
turn it down, for its version or for the metadata of one of its resources, but it never sees
something else than what was shown.
-/

namespace Kyber.Collection.ModReader

open Kyber.Lib Kyber.Frosty Kyber.ModLoader

variable {γ : Type} (buffers : Buffers) (fromJson : List UInt8 → Option γ) (filename : DartString)

/-- A reader of a file that has just been opened. -/
def Reader.opened (content : List UInt8) : Reader := { file := { content } }

/-- What the launcher shows of a mod is what is in the format. -/
structure FrostyMod.Shows (mod : FrostyMod γ) (m : Header × Details) : Prop where
  version : mod.version = m.1.version.toNat
  gameVersion : mod.gameVersion = m.1.gameVersion.toNat
  dataOffset : mod.dataOffset = m.1.dataOffset.toInt64
  dataCount : mod.dataCount = m.1.dataCount.toNat
  details : mod.details = modDetails m.2

variable {buffers fromJson filename} {content : List UInt8} {mod : FrostyMod γ}

theorem opened_at : (Reader.opened content).At (Reader.opened content) content where
  reader_eq := rfl
  length_eq := Nat.zero_add _
  rest_eq := rfl

/-- What `readMod` has gone through when it returns a mod. -/
theorem readMod_eq_some {r : Reader}
    (h : readMod buffers fromJson filename (Reader.opened content) = .ok (some mod, r)) :
    ∃ head r₁ details r₂, readHead buffers (Reader.opened content) = .ok (some head, r₁) ∧
      readDetails buffers head.version r₁ = .ok (details, r₂) ∧ mod.offset = r₂.offset ∧
        mod.version = head.version ∧ mod.gameVersion = head.gameVersion ∧
          mod.dataOffset = head.dataOffset ∧ mod.dataCount = head.dataCount ∧
            mod.details = details := by
  rw [readMod, closing] at h
  obtain ⟨result, r₃, hbody, hclose⟩ := bind_apply_eq_ok.mp h
  obtain ⟨u, r₄, hmodify, hpure⟩ := bind_apply_eq_ok.mp hclose
  cases hmodify
  cases hpure
  obtain ⟨head, r₁, hhead, hrest⟩ := bind_apply_eq_ok.mp hbody
  cases head with
  | none => cases hrest
  | some head =>
      obtain ⟨details, r₂, hdetails, hrest⟩ := bind_apply_eq_ok.mp hrest
      obtain ⟨u, r₅, hset, hrest⟩ := bind_apply_eq_ok.mp hrest
      cases hset
      obtain ⟨r₆, r₇, hget, hrest⟩ := bind_apply_eq_ok.mp hrest
      cases hget
      obtain ⟨size, r₈, hsize, hrest⟩ := bind_apply_eq_ok.mp hrest
      obtain ⟨pictures, r₉, hpictures, hrest⟩ := bind_apply_eq_ok.mp hrest
      cases hrest
      exact ⟨head, r₁, details, r₂, hhead, hdetails, rfl, rfl, rfl, rfl, rfl, rfl⟩

/-- A reader that is at a mod. -/
def FrostyMod.reader (mod : FrostyMod γ) (content : List UInt8) : Reader where
  file := { content, position := mod.offset }
  offset := mod.offset
  readerVersion := mod.version
  dataOffset := mod.dataOffset
  dataCount := mod.dataCount

theorem reader_at {rest : List UInt8} (hoffset : mod.offset + rest.length = content.length)
    (hrest : content.drop mod.offset = rest) :
    (mod.reader content).At (mod.reader content) rest where
  reader_eq := rfl
  length_eq := hoffset
  rest_eq := hrest

theorem readResources_eq_ok {rs : List BaseModResource} {r : Reader}
    (h : readResources buffers mod (Reader.opened content) = .ok (rs, r)) :
    ∃ r₁, readResourceList buffers none (mod.reader content) = .ok (rs, r₁) ∧
      r₁.offset = r.offset := by
  rw [readResources, closing] at h
  obtain ⟨result, r₃, hbody, hclose⟩ := bind_apply_eq_ok.mp h
  obtain ⟨u, r₄, hmodify, hpure⟩ := bind_apply_eq_ok.mp hclose
  cases hmodify
  cases hpure
  exact ⟨r₃, hbody, rfl⟩

/-- Whatever a file has in it, what the launcher has shown of it is a mod, and the game makes of
the file what it makes of that mod. -/
theorem readers_agree {rs : List BaseModResource} {r r' : Reader}
    (hmod : readMod buffers fromJson filename (Reader.opened content) = .ok (some mod, r))
    (hrs : readResources buffers mod (Reader.opened content) = .ok (rs, r'))
    (hwithin : r'.offset ≤ content.length) (hvalid : ∀ r ∈ rs, r.type ≠ .invalid) :
    ∃ m : Mod, mod.Shows (m.header, m.details) ∧ rs = m.resources.map baseResource ∧
      (Rt.frostyLoadMod { content }).map Prod.fst = Rt.load m := by
  obtain ⟨head, r₁, d, r₂, hhead, hdetails, hoffset, hversion, hgame, hdata, hcount, hd⟩ :=
    readMod_eq_some hmod
  obtain ⟨r₃, hlist, hend⟩ := readResources_eq_ok hrs
  have hle : mod.offset ≤ content.length := by
    have hadvances : (mod.reader content).offset ≤ r₃.offset := Advances.le _ _ _ hlist
    exact Nat.le_trans hadvances (hend ▸ hwithin)
  have hle₂ : r₂.offset ≤ content.length := hoffset ▸ hle
  have hle₁ : r₁.offset ≤ content.length :=
    Nat.le_trans (Advances.le (m := readDetails buffers head.version) _ _ _ hdetails) hle₂
  -- The header and the details are the format's.
  have hheadKeeps : Keeps (Reader.opened content) _ _ _ _ := readHead_keeps buffers
  obtain ⟨h, rest₁, hh, hheq, hat₁⟩ := hheadKeeps.answer opened_at hhead hle₁ (by simp)
  cases hheq
  have hdetailsKeeps : Keeps (Reader.opened content) _ _ _ _ := readDetails_keeps buffers h.version
  obtain ⟨d', rest₂, hd', rfl, hat₂⟩ := hdetailsKeeps.answer hat₁ hdetails hle₂ id
  -- The other reader goes on where the first has been after them.
  have hat : (mod.reader content).At (mod.reader content) rest₂ := by
    refine reader_at ?_ ?_
    · rw [hoffset]
      exact hat₂.length_eq
    · rw [hoffset]
      exact hat₂.rest_eq
  have hresourcesKeeps : Keeps (mod.reader content) _ _ _ _ :=
    readResources_keeps buffers h.version hversion
  obtain ⟨resources', rest₃, hresources, rfl, -⟩ := hresourcesKeeps.answer hat hlist
    (hend.symm ▸ hwithin) (by
      intro hbad
      obtain ⟨r, hr, htype⟩ := hbad
      exact hvalid r hr htype)
  have hparse : parse content = .ok (⟨h, d', resources'⟩, rest₃) := by
    show (header >>= fun h => details h.version >>= fun d => resources h.version >>= fun rs =>
      pure (⟨h, d, rs⟩ : Mod)) content = _
    rw [bind_apply_ok hh, bind_apply_ok hd', bind_apply_ok hresources]
    rfl
  exact ⟨⟨h, d', resources'⟩, ⟨hversion, hgame, hdata, hcount, hd⟩, rfl, Rt.frostyLoadMod_eq hparse⟩

end Kyber.Collection.ModReader
