import Kyber.ModLoader.FrostyFormat

/-!
# Mod files are read as they are written

Each part of the format has a rule that says what it takes and what it answers. Whatever a
resource has in it depends on the version and on its index, and so does how it is read: the
rules of those parts are under the conditions that `Writable` puts on them.
-/

namespace Kyber.Frosty

open Kyber.Lib Kyber.ModLoader

/-! ## Numbers and strings -/

theorem bytes_reads (bs : List UInt8) : Reads (bytes bs.length) bs bs := by
  intro tail
  simp [bytes]

theorem number_reads {w n : Nat} (h : n < 256 ^ w) : Reads (number w) (leBytes w n) n := by
  have hb := bytes_reads (leBytes w n)
  rw [length_leBytes] at hb
  have hn := hb.map leNat
  rwa [leNat_leBytes h] at hn

theorem word_reads (w : UInt32) : Reads word (wordBytes w) w := by
  have hw := (number_reads (w := 4) (n := w.toNat) w.toNat_lt).map UInt32.ofNat
  rwa [UInt32.ofNat_toNat] at hw

theorem long_reads (l : UInt64) : Reads long (longBytes l) l := by
  have hl := (number_reads (w := 8) (n := l.toNat) l.toNat_lt).map UInt64.ofNat
  rwa [UInt64.ofNat_toNat] at hl

theorem string_reads {str : ByteString} (h : Terminated str) :
    Reads string (stringBytes str) str := by
  intro tail
  have hne : ∀ b ∈ str, decide (b ≠ 0) = true := by
    intro b hb
    exact decide_eq_true fun hzero => h (hzero ▸ hb)
  have htake : (stringBytes str ++ tail).takeWhile (· ≠ 0) = str := by
    rw [stringBytes, List.append_assoc, List.takeWhile_append_of_pos hne]
    simp
  simp only [string, htake]
  rw [if_pos (by simp [stringBytes]), stringBytes, List.append_assoc,
    ← List.drop_drop, List.drop_left]
  rfl

theorem sizedString_reads {str : ByteString} (h : str.length < 256) :
    Reads sizedString (leBytes 1 str.length ++ str) str :=
  (number_reads (w := 1) h).bind (bytes_reads str)

theorem optional_reads {present : Prop} [Decidable present] {str : Option ByteString}
    (hsome : str.isSome ↔ present) (h : ∀ s ∈ str, Terminated s) :
    Reads (optional present string) (optionalBytes str) str := by
  cases str with
  | none =>
      rw [optional, if_neg (by simpa using hsome)]
      exact Reads.pure none
  | some s =>
      rw [optional, if_pos (by simpa using hsome)]
      exact (string_reads (h s rfl)).map some

/-! ## Lists -/

theorem readMany_reads {ε α : Type} {r : StreamM ε α} {emit : α → List UInt8} {as : List α}
    (h : ∀ a ∈ as, Reads r (emit a) a) : Reads (readMany r as.length) (as.flatMap emit) as := by
  induction as with
  | nil => exact Reads.pure []
  | cons a as ih =>
      rw [List.flatMap_cons]
      exact (h a List.mem_cons_self).bind
        ((ih fun x hx => h x (List.mem_cons_of_mem _ hx)).map (a :: ·))

/-- A length that a signed word can hold is read as it is. -/
theorem toNatClampNeg_length {n : Nat} (h : n < 2 ^ 31) :
    (UInt32.ofNat n).toInt32.toNatClampNeg = n := by
  have hofNat : (UInt32.ofNat n).toInt32 = Int32.ofNat n := rfl
  rw [hofNat, Int32.toNatClampNeg_ofNat_of_lt h]

theorem counted_reads {α : Type} {m : ParseM α} {g : Nat → ParseM α} {n : Nat} {bs : List UInt8}
    {a : α} (h : n < 2 ^ 31) (hm : m = word >>= fun count => g count.toInt32.toNatClampNeg)
    (hg : Reads (g n) bs a) : Reads m (leBytes 4 n ++ bs) a := by
  have hcount : Reads word (leBytes 4 n) (UInt32.ofNat n) :=
    (number_reads (w := 4) (by omega)).map UInt32.ofNat
  rw [hm]
  refine hcount.bind ?_
  rwa [toNatClampNeg_length h]

theorem words_reads {ws : List UInt32} (h : ws.length < 2 ^ 31) :
    Reads words (wordsBytes ws) ws :=
  counted_reads (g := fun count => readMany word count) h rfl
    (readMany_reads fun w _ => word_reads w)

theorem block_reads {bs : List UInt8} (h : bs.length < 2 ^ 31) :
    Reads block (leBytes 4 bs.length ++ bs) bs := by
  have hcount : Reads word (leBytes 4 bs.length) (UInt32.ofNat bs.length) :=
    (number_reads (w := 4) (by omega)).map UInt32.ofNat
  have hneg : ¬ (UInt32.ofNat bs.length).toInt32 < 0 := by
    have hofNat : (UInt32.ofNat bs.length).toInt32 = Int32.ofNat bs.length := rfl
    rw [hofNat, Int32.lt_iff_toInt_lt, Int32.toInt_ofNat_of_lt h]
    simp
  refine hcount.bind ?_
  rw [if_neg hneg, toNatClampNeg_length h]
  exact bytes_reads bs

/-! ## Resources -/

variable {version : UInt32}

theorem Payload.reads {p : Payload} (h : p.Writable version) {index : Int32} (hindex : index ≠ -1) :
    Reads (payload version index) p.bytes (some p) := by
  rw [payload, if_neg hindex]
  have hsha1 := bytes_reads p.sha1
  rw [h.sha1] at hsha1
  refine hsha1.bind ((long_reads p.size).bind ?_)
  have hflags : Reads (number 1) [p.flags] p.flags.toNat := by
    have hone := number_reads (w := 1) (n := p.flags.toNat) p.flags.toNat_lt
    simpa [leBytes] using hone
  refine hflags.bind ((word_reads p.handlerHash).bind ?_)
  rw [UInt8.ofNat_toNat]
  exact (optional_reads h.userData_isSome h.userData).map fun userData =>
    some { p with userData }

theorem payload_reads {r : Resource} (h : r.Writable version) :
    Reads (payload version r.index) (r.payload.elim [] Payload.bytes) r.payload := by
  cases hp : r.payload with
  | none =>
      have hindex : r.index = -1 := by simpa [hp] using h.payload_isSome
      rw [payload, if_pos hindex]
      exact Reads.pure none
  | some p => exact Payload.reads (h.payload p hp) (h.payload_isSome.mp (by rw [hp]; rfl))

theorem bundleLists_reads {r : Resource} (h : r.Writable version) :
    Reads (bundleLists version r.index) (r.listBytes version) (r.skipped, r.bundles) := by
  rw [bundleLists, Resource.listBytes]
  by_cases hversion : 3 < version
  · rw [if_pos hversion, if_pos hversion, h.skipped (.inl hversion)]
    exact (words_reads h.bundles_length).map fun bundles => ([], bundles)
  · rw [if_neg hversion, if_neg hversion]
    by_cases hindex : r.index = -1
    · rw [if_pos hindex, if_pos hindex, h.skipped (.inr hindex),
        h.bundles (UInt32.not_lt.mp hversion) hindex]
      exact Reads.pure _
    · rw [if_neg hindex, if_neg hindex]
      exact (words_reads h.skipped_length).bind
        ((words_reads h.bundles_length).map fun bundles => (r.skipped, bundles))

theorem Kind.reads {k : Kind} (h : k.Writable) : Reads (kind k.number) k.bytes k := by
  cases k with
  | embedded => exact Reads.pure _
  | ebx => exact Reads.pure _
  | res resType resRid resMeta =>
      exact (word_reads resType).bind ((long_reads resRid).bind
        ((block_reads h).map fun resMeta => Kind.res resType resRid resMeta))
  | chunk rangeStart rangeEnd logicalOffset logicalSize h32 firstMip =>
      exact (word_reads rangeStart).bind ((word_reads rangeEnd).bind
        ((word_reads logicalOffset).bind ((word_reads logicalSize).bind ((word_reads h32).bind
          ((word_reads firstMip).map fun firstMip =>
            Kind.chunk rangeStart rangeEnd logicalOffset logicalSize h32 firstMip)))))
  | bundle name superBundle =>
      exact (string_reads h).bind ((word_reads superBundle).map fun superBundle =>
        Kind.bundle name superBundle)

theorem Kind.number_le (k : Kind) : k.number ≤ 4 := by
  cases k <;> simp [Kind.number]

theorem Resource.reads {r : Resource} (h : r.Writable version) :
    Reads (resource version) (r.bytes version) r := by
  have hnumber := r.kind.number_le
  refine (number_reads (w := 1) (by omega)).bind ?_
  rw [if_neg (by omega)]
  refine (word_reads r.index.toUInt32).bind ?_
  have hindex : r.index.toUInt32.toInt32 = r.index := rfl
  rw [hindex]
  exact (optional_reads h.name_isSome h.name).bind ((payload_reads h).bind ((bundleLists_reads h).bind
    ((Kind.reads h.kind).map fun kind => { r with kind })))

/-! ## Mods -/

theorem Header.reads {h : Header} (hw : h.Writable) : Reads header h.bytes h := by
  have hlength : h.profile.length < 256 := by
    have hmap := congrArg List.length hw.profile
    rw [List.length_map] at hmap
    rw [hmap]
    decide
  refine (long_reads magic).bind ((word_reads h.version).bind ?_)
  have hversion : ¬ (magic ≠ magic ∨ h.version < 1) :=
    not_or.mpr ⟨fun hne => hne rfl, UInt32.not_lt.mpr hw.version⟩
  rw [if_neg hversion]
  refine (long_reads h.dataOffset).bind ((word_reads h.dataCount).bind
    ((sizedString_reads hlength).bind ?_))
  rw [if_neg (not_not_intro hw.profile)]
  exact (word_reads h.gameVersion).map fun gameVersion => { h with gameVersion }

theorem Details.reads {d : Details} (hw : d.Writable version) :
    Reads (details version) d.bytes d :=
  (string_reads hw.title).bind ((string_reads hw.author).bind ((string_reads hw.category).bind
    ((string_reads hw.modVersion).bind ((string_reads hw.description).bind
      ((optional_reads hw.link_isSome hw.link).map fun link => { d with link })))))

theorem resources_reads {rs : List Resource} (hlength : rs.length < 2 ^ 31)
    (h : ∀ r ∈ rs, r.Writable version) :
    Reads (resources version) (leBytes 4 rs.length ++ rs.flatMap (·.bytes version)) rs :=
  counted_reads (g := fun count => readMany (resource version) count) hlength rfl
    (readMany_reads fun r hr => Resource.reads (h r hr))

theorem Mod.reads {m : Mod} (h : m.Writable) : Reads parse m.bytes m :=
  (Header.reads h.header).bind ((Details.reads h.details).bind
    ((resources_reads h.resources_length h.resources).map fun resources => { m with resources }))

/-! ## Files -/

theorem length_tableBytes (place : Nat) (data : List (List UInt8)) :
    (tableBytes place data).length = data.length * 16 := by
  induction data generalizing place with
  | nil => rfl
  | cons d ds ih =>
      rw [tableBytes, List.length_append, List.length_append, length_leBytes, length_leBytes, ih,
        List.length_cons]
      omega

/-- The entry of some data is at its place in the table. -/
theorem drop_tableBytes (place : Nat) {i : Nat} {data : List (List UInt8)} (tail : List UInt8)
    (hi : i < data.length) :
    ∃ rest, (tableBytes place data ++ tail).drop (i * 16) =
      leBytes 8 (place + (data.take i).flatten.length) ++ (leBytes 8 data[i].length ++ rest) := by
  induction data generalizing place i with
  | nil => exact absurd hi (Nat.not_lt_zero i)
  | cons d ds ih =>
      cases i with
      | zero =>
          refine ⟨tableBytes (place + d.length) ds ++ tail, ?_⟩
          simp [tableBytes]
      | succ i =>
          obtain ⟨rest, hrest⟩ := ih (place + d.length) (Nat.lt_of_succ_lt_succ hi)
          refine ⟨rest, ?_⟩
          have hfront : (tableBytes place (d :: ds) ++ tail).drop 16 =
              tableBytes (place + d.length) ds ++ tail := by
            have hlength : (leBytes 8 place ++ leBytes 8 d.length).length = 16 := by
              rw [List.length_append, length_leBytes, length_leBytes]
            rw [tableBytes, ← List.append_assoc (leBytes 8 place), List.append_assoc, ← hlength,
              List.drop_left]
          have hstep : (i + 1) * 16 = 16 + i * 16 := by omega
          rw [hstep, ← List.drop_drop, hfront, hrest, List.take_succ_cons, List.flatten_cons,
            List.length_append, Nat.add_assoc]
          rfl

theorem flatten_split {α : Type} {data : List (List α)} {i : Nat} (hi : i < data.length) :
    data.flatten = (data.take i).flatten ++ (data[i] ++ (data.drop (i + 1)).flatten) := by
  rw [← List.flatten_cons, List.getElem_cons_drop, ← List.flatten_append, List.take_append_drop]

theorem signedLong_leBytes {n : Nat} (h : n < 2 ^ 63) :
    signedLong (leBytes 8 n) = Int64.ofNat n := by
  rw [signedLong, leNat_leBytes (by omega), UInt64.toInt64_ofNat']

namespace WrittenMod

variable {file : WrittenMod} {i : Nat}

theorem reads (file : WrittenMod) :
    parse file.bytes = .ok (file.mod, tableBytes 0 file.data ++ file.data.flatten) :=
  Mod.reads file.writable _

theorem drop_dataOffset :
    file.bytes.drop file.mod.header.dataOffset.toNat =
      tableBytes 0 file.data ++ file.data.flatten := by
  rw [file.dataOffset_eq, WrittenMod.bytes, List.drop_left]

theorem length_bytes :
    file.bytes.length = file.mod.header.dataStart + file.data.flatten.length := by
  rw [WrittenMod.bytes, List.length_append, List.length_append, length_tableBytes,
    Header.dataStart, file.dataOffset_eq, file.dataCount_eq, Nat.add_assoc]

theorem flatten_le (hi : i < file.data.length) :
    (file.data.take i).flatten.length + file.data[i].length ≤ file.data.flatten.length := by
  have hlength := congrArg List.length (flatten_split hi)
  rw [List.length_append, List.length_append] at hlength
  omega

/-- The entry of some data. -/
theorem entry_eq (hlength : file.bytes.length < 2 ^ 31) (hi : i < file.data.length) :
    entry file.bytes file.mod.header i = (Int64.ofNat (file.data.take i).flatten.length,
      Int64.ofNat file.data[i].length) := by
  obtain ⟨rest, hrest⟩ := drop_tableBytes 0 file.data.flatten hi
  have hle := flatten_le hi
  have hbytes := file.length_bytes
  rw [← file.drop_dataOffset, List.drop_drop, Nat.zero_add] at hrest
  have hfirst := length_leBytes 8 (file.data.take i).flatten.length
  have hsecond := length_leBytes 8 file.data[i].length
  have hback : file.bytes.drop (file.mod.header.dataOffset.toNat + i * 16 + 8) =
      (file.bytes.drop (file.mod.header.dataOffset.toNat + i * 16)).drop 8 := by
    rw [List.drop_drop]
  rw [entry, slice, slice, hback, hrest, List.take_left' hfirst, List.drop_left' hfirst,
    List.take_left' hsecond, signedLong_leBytes (by omega), signedLong_leBytes (by omega)]

theorem dataPlace_eq (hlength : file.bytes.length < 2 ^ 31) (hi : i < file.data.length) :
    dataPlace file.bytes file.mod.header i =
      file.mod.header.dataStart + (file.data.take i).flatten.length := by
  have hle := flatten_le hi
  have hbytes := file.length_bytes
  rw [dataPlace, entry_eq hlength hi, Int64.toNatClampNeg_ofNat_of_lt (by omega)]

theorem stored (hlength : file.bytes.length < 2 ^ 31) (hi : i < file.data.length) :
    Stored file.bytes file.mod.header i := by
  have hle := flatten_le hi
  have hbytes := file.length_bytes
  have hnonneg : ∀ {n : Nat}, n < 2 ^ 63 → (0 : Int64) ≤ Int64.ofNat n := by
    intro n hn
    rw [Int64.le_iff_toInt_le, Int64.toInt_ofNat_of_lt hn]
    exact Int.natCast_nonneg n
  refine ⟨file.dataCount_eq.symm ▸ hi, ?_, ?_, ?_⟩
  · rw [entry_eq hlength hi]
    exact hnonneg (by omega)
  · rw [entry_eq hlength hi]
    exact hnonneg (by omega)
  · rw [dataPlace_eq hlength hi, entry_eq hlength hi, Int64.toNatClampNeg_ofNat_of_lt (by omega)]
    omega

/-- The data are what was written. -/
theorem dataOf_eq (hlength : file.bytes.length < 2 ^ 31) (hi : i < file.data.length) :
    dataOf file.bytes file.mod.header i = file.data[i] := by
  have hle := flatten_le hi
  have hbytes := file.length_bytes
  have hdata : file.bytes.drop file.mod.header.dataStart = file.data.flatten := by
    have htable : (tableBytes 0 file.data).length = file.mod.header.dataCount.toNat * 16 := by
      rw [length_tableBytes, file.dataCount_eq]
    rw [Header.dataStart, ← List.drop_drop, file.drop_dataOffset, List.drop_left' htable]
  rw [dataOf, slice, dataPlace_eq hlength hi, entry_eq hlength hi,
    Int64.toNatClampNeg_ofNat_of_lt (by omega), ← List.drop_drop, hdata, flatten_split hi,
    List.drop_left, List.take_left]

theorem complete (hlength : file.bytes.length < 2 ^ 31) : Complete file.bytes file.mod := by
  refine ⟨hlength, fun r hr hindex => ?_⟩
  obtain ⟨hnonneg, hlt⟩ := file.index_lt r hr hindex
  exact ⟨hnonneg, stored hlength hlt⟩

end WrittenMod

/-! ## Of a file that can be read -/

theorem bytes_eq_ok {n : Nat} {rest bs rest' : List UInt8} (h : bytes n rest = .ok (bs, rest')) :
    n ≤ rest.length ∧ bs = rest.take n ∧ rest' = rest.drop n := by
  rw [bytes] at h
  split at h
  · next hn =>
      cases h
      exact ⟨hn, rfl, rfl⟩
  · cases h

theorem bytes_apply (n : Nat) (rest : List UInt8) :
    bytes n rest = if n ≤ rest.length then .ok (rest.take n, rest.drop n)
      else .error .endOfFile := rfl

theorem number_lt (w : Nat) : Yields (number w) fun n => n < 256 ^ w := by
  intro s n s' h
  obtain ⟨bs, s₁, hbs, hpure⟩ := bind_apply_eq_ok.mp h
  rw [bytes_apply] at hbs
  split at hbs
  · next hlength =>
      cases hbs
      cases hpure
      have hlt := leNat_lt (s.take w)
      rwa [List.length_take_of_le hlength] at hlt
  · cases hbs

theorem string_eq_ok {rest str rest' : List UInt8} (h : string rest = .ok (str, rest')) :
    str = rest.takeWhile (· ≠ 0) ∧ str.length < rest.length ∧ rest' = rest.drop (str.length + 1) := by
  simp only [string] at h
  split at h
  · next hlt =>
      cases h
      exact ⟨rfl, hlt, rfl⟩
  · cases h

theorem string_zero (tail : List UInt8) : string (0 :: tail) = .ok ([], tail) := by
  simp [string]

theorem string_cons {b : UInt8} (hb : b ≠ 0) (tail : List UInt8) :
    string (b :: tail) = (string tail).map fun p => (b :: p.1, p.2) := by
  simp only [string]
  rw [List.takeWhile_cons_of_pos (by simpa using hb)]
  simp only [List.length_cons, Nat.add_lt_add_iff_right]
  split <;> rfl

theorem number_one (b : UInt8) (tail : List UInt8) :
    number 1 (b :: tail) = .ok (b.toNat, tail) := by
  have hlt : 1 ≤ (b :: tail).length := by simp
  show (bytes 1 >>= fun bs => pure (leNat bs)) (b :: tail) = _
  rw [bind_apply_ok (by rw [bytes_apply, if_pos hlt])]
  simp [leNat]
  rfl

/-- What is read for a type is of that type. -/
theorem kind_number (n : Nat) : Yields (kind n) fun k => k.number = n := by
  match n with
  | 0 => exact Yields.pure rfl
  | 1 => exact Yields.pure rfl
  | 2 =>
      exact (Yields.true _).bind fun _ _ => (Yields.true _).bind fun _ _ =>
        (Yields.true _).bind fun _ _ => Yields.pure rfl
  | 3 =>
      exact (Yields.true _).bind fun _ _ => (Yields.true _).bind fun _ _ =>
        (Yields.true _).bind fun _ _ => (Yields.true _).bind fun _ _ =>
          (Yields.true _).bind fun _ _ => (Yields.true _).bind fun _ _ => Yields.pure rfl
  | 4 => exact (Yields.true _).bind fun _ _ => (Yields.true _).bind fun _ _ => Yields.pure rfl
  | n + 5 => exact Yields.throw _

end Kyber.Frosty
