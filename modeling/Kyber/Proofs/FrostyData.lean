import Kyber.Proofs.FrostyReader

/-!
# The launcher and the game find the same data

What is behind the resources of a mod's file is found through the table. The launcher reads the
table as a whole and looks an entry up in it, and the game seeks the entry and reads two numbers.
In a file that has the data in it, both come to the same place, so what the launcher shows as an
icon or a screenshot is what the game is given for the resource; and the place and the size that
`LoadMod` leaves in a resource are those of its data in the file.
-/

namespace Kyber.Frosty

open Kyber.Lib Kyber.ModLoader

/-! ## Places -/

theorem slice_slice {content : List UInt8} {p n k m : Nat} (h : k + m ≤ n) :
    ((slice content p n).drop k).take m = slice content (p + k) m := by
  rw [slice, slice, List.drop_take, List.take_take, List.drop_drop,
    Nat.min_eq_left (by omega)]

theorem length_slice {content : List UInt8} {p n : Nat} (h : p + n ≤ content.length) :
    (slice content p n).length = n := by
  rw [slice, List.length_take, List.length_drop]
  omega

variable {content : List UInt8} {h : Header} {i : Nat}

theorem Stored.dataStart_le (hs : Stored content h i) : h.dataStart ≤ content.length := by
  have hle := hs.size_le
  rw [dataPlace] at hle
  omega

theorem Stored.entry_lt (hs : Stored content h i) :
    h.dataOffset.toNat + i * 16 + 16 ≤ h.dataStart := by
  have hlt := hs.index_lt
  rw [Header.dataStart]
  omega

theorem dataOffset_eq : h.dataOffset.toInt64 = Int64.ofNat h.dataOffset.toNat := by
  rw [← UInt64.toInt64_ofNat', UInt64.ofNat_toNat]

theorem Stored.place_eq (hs : Stored content h i) :
    Int64.ofNat h.dataStart + (entry content h i).1 = Int64.ofNat (dataPlace content h i) := by
  rw [dataPlace, Int64.ofNat_add, Int64.ofNat_toNatClampNeg _ hs.place_nonneg]

theorem toNatClampNeg_of_lt {n : Nat} (h : n < 2 ^ 31) : (Int64.ofNat n).toNatClampNeg = n :=
  Int64.toNatClampNeg_ofNat_of_lt (by omega)

theorem ofNat_nonneg {n : Nat} (h : n < 2 ^ 31) : ¬ Int64.ofNat n < 0 := by
  rw [Int64.lt_iff_toInt_lt, Int64.toInt_ofNat_of_lt (by omega)]
  simp

end Kyber.Frosty

namespace Kyber.Collection.ModReader

open Kyber.Lib Kyber.Frosty Kyber.ModLoader

/-! ## In the launcher -/

/-- A reader that is somewhere in a mod's file, and knows the table or has yet to read it. -/
structure Reader.Ready (content : List UInt8) (h : Header) (r : Reader) : Prop where
  content_eq : r.file.content = content
  closed_eq : r.file.closed = false
  dataOffset_eq : r.dataOffset = h.dataOffset.toInt64
  dataCount_eq : r.dataCount = h.dataCount.toNat
  entries_eq : ∀ entries ∈ r.entries, entries = (List.range h.dataCount.toNat).map (entry content h)

/-- A reader that has been put at a place of its file. -/
def Reader.sought (r : Reader) (place : Nat) : Reader :=
  { r with file := { r.file with position := place } }

variable {content : List UInt8} {h : Header} {r : Reader} {i : Nat} {res : Resource}

theorem Reader.Ready.sought (hr : r.Ready content h) (place : Nat) :
    (r.sought place).Ready content h :=
  ⟨hr.content_eq, hr.closed_eq, hr.dataOffset_eq, hr.dataCount_eq, hr.entries_eq⟩

theorem Reader.Ready.seek_eq (hr : r.Ready content h) {n : Nat} (hn : n < 2 ^ 31) :
    seek (Int64.ofNat n) r = .ok ((), r.sought n) := by
  rw [seek, if_neg (ofNat_nonneg hn), toNatClampNeg_of_lt hn]
  simp only [ofFile, Frosty.setPositionSync, hr.closed_eq, Bool.false_eq_true, if_false,
    Reader.sought]

theorem Reader.Ready.readSync_eq (hr : r.Ready content h) {place n : Nat}
    (hn : place + n ≤ content.length) :
    ofFile (Frosty.readSync n) (r.sought place) =
      .ok (slice content place n, r.sought (place + n)) := by
  have hlength := length_slice hn
  rw [slice] at hlength
  simp only [ofFile, Frosty.readSync, Reader.sought, hr.closed_eq, hr.content_eq,
    Bool.false_eq_true, if_false, hlength, slice]

theorem entryAt_slice {place n : Nat} (hn : i * 16 + 16 ≤ n) :
    entryAt (slice content place n) i =
      (signedLong (slice content (place + i * 16) 8),
        signedLong (slice content (place + i * 16 + 8) 8)) := by
  rw [entryAt, slice_slice (by omega), slice_slice (by omega), Nat.add_assoc]
  rfl

/-- The table of a header. -/
def table (content : List UInt8) (h : Header) : List (Int64 × Int64) :=
  (List.range h.dataCount.toNat).map (entry content h)

theorem loadEntryTable_eq (hr : r.Ready content h) (hlength : content.length < 2 ^ 31)
    (hstart : h.dataStart ≤ content.length) :
    loadEntryTable r =
      .ok (table content h, { r.sought h.dataStart with entries := some (table content h) }) := by
  have hfull : (slice content h.dataOffset.toNat (h.dataCount.toNat * 16)).length =
      h.dataCount.toNat * 16 := length_slice hstart
  have hmap : (List.range h.dataCount.toNat).map
      (entryAt (slice content h.dataOffset.toNat (h.dataCount.toNat * 16))) = table content h := by
    refine List.map_congr_left fun i hi => ?_
    have hlt := List.mem_range.mp hi
    exact entryAt_slice (by omega)
  have hplace : h.dataOffset.toNat < 2 ^ 31 := by
    rw [Header.dataStart] at hstart
    omega
  rw [loadEntryTable, get_bind_apply, hr.dataOffset_eq,
    Frosty.dataOffset_eq, bind_apply_answer (hr.seek_eq hplace), hr.dataCount_eq,
    bind_apply_answer (hr.readSync_eq hstart), hfull, if_neg (Nat.lt_irrefl _), hmap]
  rfl

theorem Reader.Ready.entryTable (hr : r.Ready content h) (hlength : content.length < 2 ^ 31)
    (hstart : h.dataStart ≤ content.length) :
    ∃ r', entryTable r = .ok (table content h, r') ∧ r'.Ready content h := by
  cases hentries : r.entries with
  | some entries =>
      refine ⟨r, ?_, hr⟩
      rw [ModReader.entryTable, get_bind_apply]
      simp only [hentries, hr.entries_eq entries hentries]
      rfl
  | none =>
      refine ⟨{ r.sought h.dataStart with entries := some (table content h) }, ?_, hr.content_eq,
        hr.closed_eq, hr.dataOffset_eq, hr.dataCount_eq, ?_⟩
      · rw [ModReader.entryTable, get_bind_apply]
        simp only [hentries]
        exact loadEntryTable_eq hr hlength hstart
      · intro entries hsome
        cases hsome
        rfl

theorem readResource_eq (hr : r.Ready content h) (hlength : content.length < 2 ^ 31)
    (hstored : res.index ≠ -1 → 0 ≤ res.index ∧ Stored content h res.index.toNatClampNeg) :
    ∃ r', readResource (baseResource res) r = .ok (resourceData content h res.index, r') ∧
      r'.Ready content h := by
  have hiff : (baseResource res).resourceIndex = -1 ↔ res.index = -1 :=
    Int32.toInt_inj (x := res.index) (y := -1)
  rw [readResource, resourceData]
  by_cases hindex : res.index = -1
  · rw [if_pos (hiff.mpr hindex), if_pos hindex]
    exact ⟨r, rfl, hr⟩
  rw [if_neg (hiff.not.mpr hindex), if_neg hindex]
  obtain ⟨hnonneg, hs⟩ := hstored hindex
  obtain ⟨r₁, htable, hr₁⟩ := hr.entryTable hlength hs.dataStart_le
  have hcast : (baseResource res).resourceIndex = (res.index.toNatClampNeg : Int) :=
    (Int32.cast_toNatClampNeg _ hnonneg).symm
  have hentry : (table content h)[res.index.toNatClampNeg]? =
      some (entry content h res.index.toNatClampNeg) := by
    rw [table, List.getElem?_map, List.getElem?_range hs.index_lt]
    rfl
  have hstart := hs.dataStart_le
  have hsize := hs.size_le
  rw [bind_apply_answer htable]
  simp only [hcast, Int.toNat_natCast, hentry]
  rw [if_neg (by omega), get_bind_apply, hr₁.dataOffset_eq,
    hr₁.dataCount_eq, Frosty.dataOffset_eq, ← Int64.ofNat_add]
  have hplace : Int64.ofNat (h.dataOffset.toNat + h.dataCount.toNat * 16) +
      (entry content h res.index.toNatClampNeg).1 = Int64.ofNat (dataPlace content h _) :=
    hs.place_eq
  rw [hplace, bind_apply_answer (hr₁.seek_eq (by omega)),
    if_neg (Int64.not_lt.mpr hs.size_nonneg), bind_apply_answer (hr₁.readSync_eq hsize)]
  exact ⟨_, rfl, hr₁.sought _⟩

/-- The first of many answers. -/
theorem readMany_take {ε α : Type} {p : StreamM ε α} {n k : Nat} {rest rest' : List UInt8}
    {as : List α}
    (h : readMany p n rest = .ok (as, rest')) (hk : k ≤ n) :
    ∃ rest₁, readMany p k rest = .ok (as.take k, rest₁) := by
  induction k generalizing n rest as with
  | zero => exact ⟨rest, rfl⟩
  | succ k ih =>
      cases n with
      | zero => exact absurd hk (Nat.not_succ_le_zero k)
      | succ n =>
          obtain ⟨a, s₁, ha, htail⟩ := bind_apply_eq_ok.mp h
          obtain ⟨as', s₂, has, hpure⟩ := bind_apply_eq_ok.mp htail
          cases hpure
          obtain ⟨s₃, htake⟩ := ih has (Nat.le_of_succ_le_succ hk)
          refine ⟨s₃, ?_⟩
          show (p >>= fun a => readMany p k >>= fun as => pure (a :: as)) rest = _
          rw [bind_apply_ok ha, bind_apply_ok htake]
          rfl

theorem length_readMany {ε α : Type} {p : StreamM ε α} {n : Nat} {rest rest' : List UInt8}
    {as : List α} (h : readMany p n rest = .ok (as, rest')) : as.length = n := by
  induction n generalizing rest as with
  | zero =>
      cases h
      rfl
  | succ n ih =>
      obtain ⟨a, s₁, ha, htail⟩ := bind_apply_eq_ok.mp h
      obtain ⟨as', s₂, has, hpure⟩ := bind_apply_eq_ok.mp htail
      cases hpure
      rw [List.length_cons, ih has]

variable {r₀ : Reader} (buffers : Buffers) {version : UInt32} {rest rest' : List UInt8}
  {rs : List Resource}

theorem maxResources_toNat (count : Int32) (limit : Nat) :
    (maxResources count.toInt (some limit)).toNat = min limit count.toNatClampNeg := by
  have hclamp : count.toNatClampNeg = count.toInt.toNat := rfl
  rw [maxResources, hclamp]
  split <;> omega

/-- The first resources of a mod. -/
theorem readResourceList_limit (hversion : r₀.readerVersion = version.toNat) (hr : r₀.At r rest)
    (h : resources version rest = .ok (rs, rest')) (limit : Nat) :
    ∃ r' rest₁, readResourceList buffers (some limit) r =
      .ok ((rs.take limit).map baseResource, r') ∧ r₀.At r' rest₁ := by
  obtain ⟨count, rest₁, hcount, hmany⟩ := bind_apply_eq_ok.mp h
  obtain ⟨r₁, hread, hr₁⟩ := ((readInt_keeps buffers).follows r rest count rest₁ hr hcount).1 _ rfl
  have hk : min limit count.toInt32.toNatClampNeg ≤ count.toInt32.toNatClampNeg :=
    Nat.min_le_right _ _
  obtain ⟨rest₂, htake⟩ := readMany_take hmany hk
  have hlist : rs.take (min limit count.toInt32.toNatClampNeg) = rs.take limit := by
    rw [← length_readMany hmany, ← List.take_take, List.take_length]
  rw [hlist] at htake
  obtain ⟨r₂, hlistRead, hr₂⟩ := (((readResource_keeps buffers version).readMany _).follows
    r₁ rest₁ _ rest₂ hr₁ htake).1 _ rfl
  refine ⟨r₂, rest₂, ?_, hr₂⟩
  have hr₁version : r₁.readerVersion = version.toNat := by rw [hr₁.reader_eq, ← hversion]
  rw [readResourceList, bind_apply_answer hread, get_bind_apply,
    hr₁version, maxResources_toNat]
  exact hlistRead

theorem mapM_readResource (hlength : content.length < 2 ^ 31)
    (hstored : ∀ res ∈ rs, res.index ≠ -1 →
      0 ≤ res.index ∧ Stored content h res.index.toNatClampNeg) (hr : r.Ready content h) :
    ∃ r', (rs.map baseResource).mapM readResource r =
      .ok (rs.map fun res => resourceData content h res.index, r') ∧ r'.Ready content h := by
  induction rs generalizing r with
  | nil => exact ⟨r, rfl, hr⟩
  | cons res rs ih =>
      obtain ⟨r₁, hres, hr₁⟩ := readResource_eq hr hlength (hstored res List.mem_cons_self)
      obtain ⟨r₂, hrs, hr₂⟩ := ih (fun x hx => hstored x (List.mem_cons_of_mem _ hx)) hr₁
      refine ⟨r₂, ?_, hr₂⟩
      rw [List.map_cons, List.mapM_cons, bind_apply_answer hres, bind_apply_answer hrs]
      rfl

/-- A reader that is at a place of a mod's file is ready. -/
theorem Reader.At.ready (hr : r₀.At r rest) (hcontent : r₀.file.content = content)
    (hoffset : r₀.dataOffset = h.dataOffset.toInt64) (hcount : r₀.dataCount = h.dataCount.toNat)
    (hentries : r₀.entries = none) : r.Ready content h := by
  rw [hr.reader_eq]
  refine ⟨hcontent, rfl, hoffset, hcount, fun entries hsome => ?_⟩
  rw [hentries] at hsome
  cases hsome

/-! ## What is shown of a mod -/

section

variable {γ : Type} (fromJson : List UInt8 → Option γ) (filename : DartString)
  (content : List UInt8) (m : Mod)

/-- The data of a resource of a mod, if it has any. -/
def picture (r : Resource) : Option (List UInt8) := resourceData content m.header r.index

/-- The sixth resource of some mods is not a picture. -/
def shownData : Option γ :=
  if kDataCategories.contains (fromCharCodes m.details.category) then
    ((m.resources.take 6).getLast?.bind (picture content m)).bind fromJson
  else
    none

/-- What the launcher shows of a mod. -/
def shownMod (offset : Nat) : FrostyMod γ where
  version := m.header.version.toNat
  gameVersion := m.header.gameVersion.toNat
  filename
  icon := m.resources.head?.bind (picture content m)
  size := content.length
  dataCount := m.header.dataCount.toNat
  dataOffset := m.header.dataOffset.toInt64
  offset
  customFrostyData := shownData fromJson content m
  details := modDetails m.details

def screenshots : List (List UInt8) :=
  ((m.resources.take 5).drop 1).filterMap (picture content m)

end

section

variable {γ : Type} (fromJson : List UInt8 → Option γ) (filename : DartString) {m : Mod}

theorem readPictures_eq (hversion : r₀.readerVersion = m.header.version.toNat) (hr : r₀.At r rest)
    (hready : ∀ r rest, r₀.At r rest → r.Ready content m.header)
    (h : resources m.header.version rest = .ok (m.resources, rest')) (hcomplete : Complete content m)
    (hne : m.resources ≠ []) :
    ∃ r', readPictures buffers fromJson (fromCharCodes m.details.category) r =
      .ok ((m.resources.head?.bind (picture content m), shownData fromJson content m), r') := by
  have hstored : ∀ limit, ∀ res ∈ m.resources.take limit, res.index ≠ -1 →
      0 ≤ res.index ∧ Stored content m.header res.index.toNatClampNeg :=
    fun limit res hres => hcomplete.stored res (List.mem_of_mem_take hres)
  rw [readPictures, shownData]
  by_cases hcategory : kDataCategories.contains (fromCharCodes m.details.category)
  · rw [if_pos hcategory, if_pos hcategory]
    obtain ⟨r₁, rest₁, hlist, hr₁⟩ := readResourceList_limit buffers hversion hr h 6
    obtain ⟨r₂, hdata, -⟩ := mapM_readResource hcomplete.length_lt (hstored 6) (hready r₁ rest₁ hr₁)
    refine ⟨r₂, ?_⟩
    have hlist' : readResourceList buffers (some 6) r = _ := hlist
    have hjoin : ∀ res : Option Resource,
        (res.map fun res => resourceData content m.header res.index).join =
          res.bind (picture content m) := by
      intro res
      cases res <;> rfl
    rw [bind_apply_answer hlist', bind_apply_answer hdata, List.head?_map, List.getLast?_map,
      List.head?_take, if_neg (by omega), hjoin, hjoin]
    rfl
  · rw [if_neg hcategory, if_neg hcategory]
    obtain ⟨r₁, rest₁, hlist, hr₁⟩ := readResourceList_limit buffers hversion hr h 1
    obtain ⟨res, rs, hrs⟩ := List.exists_cons_of_ne_nil hne
    have hmem : res ∈ m.resources := hrs ▸ List.mem_cons_self
    obtain ⟨r₂, hdata, -⟩ := readResource_eq (hready r₁ rest₁ hr₁) hcomplete.length_lt
      (hcomplete.stored res hmem)
    refine ⟨r₂, ?_⟩
    have hlist' : readResourceList buffers (some 1) r = _ := hlist
    rw [bind_apply_answer hlist', hrs]
    simp only [List.take_succ_cons, List.take_zero, List.map_cons, List.map_nil, List.head?_cons]
    rw [bind_apply_answer hdata]
    rfl

/-- The parts of a mod that is in the format. -/
theorem parse_eq_ok (h : parse content = .ok (m, rest)) :
    ∃ rest₁ rest₂, header content = .ok (m.header, rest₁) ∧
      details m.header.version rest₁ = .ok (m.details, rest₂) ∧
        resources m.header.version rest₂ = .ok (m.resources, rest) := by
  obtain ⟨h', rest₁, hh, htail⟩ := bind_apply_eq_ok.mp h
  obtain ⟨d, rest₂, hd, htail⟩ := bind_apply_eq_ok.mp htail
  obtain ⟨rs, rest₃, hrs, hpure⟩ := bind_apply_eq_ok.mp htail
  cases hpure
  exact ⟨rest₁, rest₂, hh, hd, hrs⟩

theorem lengthSync_eq (hclosed : r.file.closed = false) :
    ofFile Frosty.lengthSync r = .ok (r.file.content.length, r) := by
  simp only [ofFile, Frosty.lengthSync, hclosed, Bool.false_eq_true, if_false]

def Reader.close (r : Reader) : Reader := { r with file := { r.file with closed := true } }

theorem closing_eq {α : Type} {body : ReaderM α} {a : α} {r r' : Reader} (h : body r = .ok (a, r')) :
    closing body r = .ok (a, r'.close) := by
  rw [closing, bind_apply_answer h]
  rfl

/-- A mod of the format is shown, with its data, and another reader can go on behind its details. -/
theorem readMod_eq (h : parse content = .ok (m, rest)) (hcomplete : Complete content m)
    (hne : m.resources ≠ []) :
    ∃ offset r' rest', readMod buffers fromJson filename (Reader.opened content) =
        .ok (some (shownMod fromJson filename content m offset), r') ∧
      offset + rest'.length = content.length ∧ content.drop offset = rest' ∧
        resources m.header.version rest' = .ok (m.resources, rest) := by
  obtain ⟨rest₁, rest₂, hh, hd, hrs⟩ := parse_eq_ok h
  obtain ⟨r₁, hhead, hr₁⟩ := ((readHead_keeps buffers).follows _ _ _ _ opened_at hh).1 _ rfl
  obtain ⟨r₂, hdetails, hr₂⟩ :=
    ((readDetails_keeps buffers m.header.version).follows _ _ _ _ hr₁ hd).1 _ rfl
  -- The reader goes on with the numbers of the header.
  let r₃ : Reader := { r₂ with
    readerVersion := m.header.version.toNat, dataOffset := m.header.dataOffset.toInt64
    dataCount := m.header.dataCount.toNat }
  have hfile : r₂.file = { content, position := r₂.offset } := by rw [hr₂.reader_eq]; rfl
  have hentries : r₂.entries = none := by rw [hr₂.reader_eq]; rfl
  have hr₃ : r₃.At r₃ rest₂ := by
    refine ⟨?_, ?_, ?_⟩
    · show r₃ = { r₃ with
        file := { content := r₂.file.content, position := r₂.offset, closed := false }
        offset := r₂.offset }
      rw [hfile]
      show r₃ = { r₃ with file := { content, position := r₂.offset } }
      rw [← hfile]
    · show r₂.offset + rest₂.length = r₂.file.content.length
      rw [hfile]
      exact hr₂.length_eq
    · show r₂.file.content.drop r₂.offset = rest₂
      rw [hfile]
      exact hr₂.rest_eq
  have hready : ∀ r rest, r₃.At r rest → r.Ready content m.header := by
    intro r rest hr
    refine hr.ready ?_ rfl rfl hentries
    show r₂.file.content = content
    rw [hfile]
  obtain ⟨r₄, hpictures⟩ := readPictures_eq buffers fromJson rfl hr₃
    hready hrs hcomplete hne
  have hsize : ofFile Frosty.lengthSync r₃ = .ok (content.length, r₃) := by
    have h := lengthSync_eq (r := r₃) (by show r₂.file.closed = false; rw [hfile])
    have hcontent : r₃.file.content = content := by
      show r₂.file.content = content
      rw [hfile]
    rwa [hcontent] at h
  refine ⟨r₂.offset, r₄.close, rest₂, closing_eq ?_, hr₂.length_eq, hr₂.rest_eq, hrs⟩
  rw [bind_apply_answer hhead]
  show (readDetails buffers m.header.version.toNat >>= _) r₁ = _
  have hset : setHead (headOf m.header) r₂ = .ok ((), r₃) := rfl
  rw [bind_apply_answer hdetails, bind_apply_answer hset, get_bind_apply, bind_apply_answer hsize]
  have hpictures' : readPictures buffers fromJson (modDetails m.details).category r₃ = _ := hpictures
  rw [bind_apply_answer hpictures']
  rfl

variable {offset : Nat}

/-- A reader of a mod that has been shown is where its resources are. -/
theorem shownMod_at (m : Mod) (hlength : offset + rest.length = content.length)
    (hrest : content.drop offset = rest) :
    ((shownMod fromJson filename content m offset).reader content).At
      ((shownMod fromJson filename content m offset).reader content) rest :=
  reader_at hlength hrest

theorem readResources_eq (hlength : offset + rest.length = content.length)
    (hrest : content.drop offset = rest)
    (h : resources m.header.version rest = .ok (m.resources, rest')) :
    ∃ r', readResources buffers (shownMod fromJson filename content m offset)
      (Reader.opened content) = .ok (m.resources.map baseResource, r') ∧
        r'.offset ≤ content.length := by
  obtain ⟨r₁, hlist, hr₁⟩ := ((readResources_keeps buffers m.header.version rfl).follows _ _ _ _
    (shownMod_at fromJson filename m hlength hrest) h).1 _ rfl
  have hend := hr₁.length_eq
  refine ⟨r₁.close, closing_eq hlist, ?_⟩
  show r₁.offset ≤ content.length
  exact Nat.le.intro hend

theorem reduceOption_map_resourceData (rs : List Resource) :
    (rs.map fun res => resourceData content m.header res.index).reduceOption =
      rs.filterMap (picture content m) := by
  show (rs.map fun res => resourceData content m.header res.index).filterMap id = _
  rw [List.filterMap_map]
  rfl

theorem readScreenshots_eq (hlength : offset + rest.length = content.length)
    (hrest : content.drop offset = rest)
    (h : resources m.header.version rest = .ok (m.resources, rest'))
    (hcomplete : Complete content m) :
    ∃ r', readScreenshots buffers (shownMod fromJson filename content m offset)
      (Reader.opened content) = .ok (screenshots content m, r') := by
  have hat := shownMod_at fromJson filename m hlength hrest
  obtain ⟨r₁, rest₁, hlist, hr₁⟩ :=
    readResourceList_limit buffers rfl hat h 5
  have hready : r₁.Ready content m.header := hr₁.ready rfl rfl rfl rfl
  have hstored : ∀ res ∈ (m.resources.take 5).drop 1, res.index ≠ -1 →
      0 ≤ res.index ∧ Stored content m.header res.index.toNatClampNeg :=
    fun res hres => hcomplete.stored res (List.mem_of_mem_take (List.mem_of_mem_drop hres))
  obtain ⟨r₂, hdata, -⟩ := mapM_readResource hcomplete.length_lt hstored hready
  refine ⟨r₂.close, closing_eq ?_⟩
  show (readResourceList buffers (some 5) >>= fun resources =>
    (resources.drop 1).mapM readResource >>= fun screenshots => pure screenshots.reduceOption)
      ((shownMod fromJson filename content m offset).reader content) = _
  have hlist' : readResourceList buffers (some 5)
    ((shownMod fromJson filename content m offset).reader content) = _ := hlist
  rw [bind_apply_answer hlist', ← List.map_drop, bind_apply_answer hdata,
    reduceOption_map_resourceData]
  rfl

end

end Kyber.Collection.ModReader

namespace Kyber.ModLoader.Rt

open Kyber.Lib Kyber.Frosty

/-! ## In the game -/

section

variable (memory : Nat → UInt8) (decompressEbx : List UInt8 → Except RtError (List UInt8))

/-- What `LoadMod` works on is a mod that has been loaded from a file, and what it reads of its
data is read from that file. Where it cannot be put at a place, the file is where it was. -/
structure Backed (content : List UInt8) (mod : FrostyMod) (rt : RTFrostyMod) : Prop where
  dataOffset_eq : rt.dataOffset = mod.dataOffset
  dataCount_eq : rt.dataCount = mod.dataCount
  resources_eq : rt.resources = mod.resources.map (·.toRTFrostyResource)
  readFp_eq : ∀ place, 0 ≤ place →
    (readEntry place { content }).map Prod.fst = .ok (rt.readFp place)
  readModResource_eq : ∀ r ∈ rt.resources, 0 ≤ rt.soughtPlace r →
    rt.readModResource r =
      ((frostyReadModResource memory decompressEbx rt r { content }).map Prod.fst).toOption

end

variable {content : List UInt8}

theorem fseek_eq {n : Nat} (hn : n < 2 ^ 31) (f : CFile) :
    fseek (Int64.ofNat n) f = .ok ((), { f with position := n }) := by
  rw [fseek, if_neg (ofNat_nonneg hn), toNatClampNeg_of_lt hn]

theorem fread_eq {place : Nat} {object : List UInt8} (hn : place + object.length ≤ content.length) :
    fread object { content, position := place } =
      .ok (slice content place object.length,
        { content, position := place + object.length }) := by
  have hlength := length_slice hn
  rw [slice] at hlength
  simp only [fread, CFile.rest, hlength, List.drop_length, List.append_nil]
  rfl

theorem readInt64_eq (place : Nat) (hn : place + 8 ≤ content.length) :
    readInt64 { content, position := place } =
      .ok (signedLong (slice content place 8), { content, position := place + 8 }) := by
  have hfread := @fread_eq content place (leBytes 8 0) (by rwa [length_leBytes])
  rw [length_leBytes] at hfread
  rw [readInt64, readUInt64, readFp, bind_assoc, bind_assoc, bind_apply_answer hfread]
  rfl

theorem readEntry_eq {place : Nat} (hn : place + 16 ≤ content.length) (hlt : place < 2 ^ 31)
    (f : CFile) (hf : f.content = content) :
    readEntry (Int64.ofNat place) f =
      .ok ((signedLong (slice content place 8), signedLong (slice content (place + 8) 8)),
        { content, position := place + 16 }) := by
  rw [readEntry, bind_apply_answer (fseek_eq hlt f), hf,
    bind_apply_answer (readInt64_eq place (by omega)),
    bind_apply_answer (readInt64_eq (place + 8) (by omega))]
  rfl

variable {memory : Nat → UInt8} {decompressEbx : List UInt8 → Except RtError (List UInt8)}
  {m : Mod} {mod : FrostyMod} {rt : RTFrostyMod} {resource : RTFrostyResource} {i : Nat}

/-- What is known of a mod that has been loaded. -/
theorem load_eq_ok (h : load m = .ok mod) :
    m.header.version ≤ 5 ∧ mod.dataOffset = m.header.dataOffset.toInt64 ∧
      mod.dataCount = m.header.dataCount.toInt32 ∧
        m.resources.mapM loadResource = .ok mod.resources := by
  rw [load, loadHeader] at h
  by_cases hversion : 5 < m.header.version
  · rw [if_pos hversion] at h
    cases h
  · rw [if_neg hversion] at h
    cases hrs : m.resources.mapM loadResource with
    | error e =>
        rw [hrs] at h
        cases h
    | ok resources =>
        rw [hrs] at h
        cases h
        exact ⟨UInt32.not_lt.mp hversion, rfl, rfl, rfl⟩

/-- A mod's file, of which the game has an entry at hand. -/
structure Placed (content : List UInt8) (m : Mod) (rt : RTFrostyMod) (resource : RTFrostyResource)
    (i : Nat) : Prop where
  length_lt : content.length < 2 ^ 31
  dataOffset_eq : rt.dataOffset = m.header.dataOffset.toInt64
  dataCount_eq : rt.dataCount = m.header.dataCount.toInt32
  index_eq : resource.resourceIndex = Int32.ofNat i
  stored : Stored content m.header i

theorem toInt64_of_lt {n : Nat} (h : n < 2 ^ 31) : (Int32.ofNat n).toInt64 = Int64.ofNat n := by
  have hmax : Int32.maxValue.toInt = 2147483647 := by decide
  refine Int32.toInt64_ofNat' ?_
  rw [hmax]
  omega

theorem narrow_of_lt {n : Nat} (h : n < 2 ^ 31) :
    (Int64.ofNat n).toInt32.toInt64 = Int64.ofNat n := by
  rw [Int64.toInt32_ofNat', toInt64_of_lt h]

theorem Placed.soughtPlace_eq (h : Placed content m rt resource i) :
    rt.soughtPlace resource = Int64.ofNat (m.header.dataOffset.toNat + i * 16) := by
  have hentry := h.stored.entry_lt
  have hstart := h.stored.dataStart_le
  have hlength := h.length_lt
  rw [RTFrostyMod.soughtPlace, h.dataOffset_eq, h.index_eq, Frosty.dataOffset_eq]
  have hmul : Int32.ofNat i * 16 = Int32.ofNat (i * 16) := (Int32.ofNat_mul i 16).symm
  rw [hmul, toInt64_of_lt (by omega), ← Int64.ofNat_add, narrow_of_lt (by omega)]

theorem Placed.dataStart_eq (h : Placed content m rt resource i) :
    rt.dataOffset + (rt.dataCount * 16).toInt64 = Int64.ofNat m.header.dataStart := by
  have hstart := h.stored.dataStart_le
  have hlength := h.length_lt
  have hcount : rt.dataCount = Int32.ofNat m.header.dataCount.toNat := by
    rw [h.dataCount_eq, ← UInt32.toInt32_ofNat', UInt32.ofNat_toNat]
  have hmul : rt.dataCount * 16 = Int32.ofNat (m.header.dataCount.toNat * 16) := by
    rw [hcount]
    exact (Int32.ofNat_mul _ 16).symm
  rw [Header.dataStart] at hstart
  rw [hmul, toInt64_of_lt (by omega), h.dataOffset_eq, Frosty.dataOffset_eq, ← Int64.ofNat_add]
  rfl

theorem Placed.readEntry_eq (h : Placed content m rt resource i) (f : CFile)
    (hf : f.content = content) :
    readEntry (rt.soughtPlace resource) f = .ok (entry content m.header i,
      { content, position := m.header.dataOffset.toNat + i * 16 + 16 }) := by
  have hentry := h.stored.entry_lt
  have hstart := h.stored.dataStart_le
  have hlength := h.length_lt
  rw [h.soughtPlace_eq]
  exact Rt.readEntry_eq (by omega) (by omega) f hf

theorem Placed.soughtPlace_nonneg (h : Placed content m rt resource i) :
    0 ≤ rt.soughtPlace resource := by
  have hentry := h.stored.entry_lt
  have hstart := h.stored.dataStart_le
  have hlength := h.length_lt
  rw [h.soughtPlace_eq]
  exact Int64.not_lt.mp (ofNat_nonneg (by omega))

theorem Placed.index_ne (h : Placed content m rt resource i) : resource.resourceIndex ≠ -1 := by
  have hlt := h.stored.index_lt
  have hentry := h.stored.entry_lt
  have hstart := h.stored.dataStart_le
  have hlength := h.length_lt
  intro hneg
  have hint := congrArg Int32.toInt (h.index_eq.symm.trans hneg)
  rw [Int32.toInt_ofNat_of_lt (by omega)] at hint
  have hone : (-1 : Int32).toInt = -1 := by decide
  omega

/-- The place and the size that `LoadMod` works out are those of the data. -/
theorem Placed.locate_eq (h : Placed content m rt resource i)
    (hbacked : ∀ place, 0 ≤ place →
      (readEntry place { content }).map Prod.fst = .ok (rt.readFp place)) :
    rt.locate resource =
      (Int64.ofNat (dataPlace content m.header i), (entry content m.header i).2) := by
  have hread := hbacked _ h.soughtPlace_nonneg
  rw [h.readEntry_eq _ rfl] at hread
  have hfp : rt.readFp (rt.soughtPlace resource) = entry content m.header i :=
    (Except.ok.inj hread).symm
  rw [RTFrostyMod.locate, if_pos h.index_ne, hfp]
  show (rt.dataOffset + (rt.dataCount * 16).toInt64 + (entry content m.header i).1, _) = _
  rw [h.dataStart_eq, h.stored.place_eq]
  rfl

/-- What a handler is given is the data. -/
theorem Placed.frostyReadModResource_eq (h : Placed content m rt resource i)
    (hhandler : resource.handlerHash ≠ 0) :
    (frostyReadModResource memory decompressEbx rt resource { content }).map Prod.fst =
      .ok (some (dataOf content m.header i)) := by
  have hsize := h.stored.size_le
  have hlength := h.length_lt
  have hcompressed : compressed resource = false := by
    rw [compressed, beq_false_of_ne hhandler, Bool.and_false]
  rw [frostyReadModResource, if_neg h.index_ne, bind_apply_answer (h.readEntry_eq _ rfl)]
  show Except.map Prod.fst ((fseek (rt.dataOffset + (rt.dataCount * 16).toInt64 +
    (entry content m.header i).1).toInt32.toInt64 >>= _) _) = _
  have hsecond : signedLong (slice content (m.header.dataOffset.toNat + i * 16 + 8) 8) =
      (entry content m.header i).2 := rfl
  rw [h.dataStart_eq, h.stored.place_eq, narrow_of_lt (by omega),
    bind_apply_answer (fseek_eq (by omega) _), hsecond,
    if_neg (Int64.not_lt.mpr h.stored.size_nonneg)]
  have hobject : ((List.range (entry content m.header i).2.toNatClampNeg).map memory).length =
      (entry content m.header i).2.toNatClampNeg := by
    rw [List.length_map, List.length_range]
  rw [bind_apply_answer (fread_eq (by rwa [hobject])), hobject, hcompressed]
  rfl

/-! ## What the loader makes of a mod -/

/-- The name in the bundle that a resource adds. -/
def bundleName : Kind → Option ByteString
  | .bundle name _ => some name
  | _ => none

def assetName (r : Resource) : ByteString := ((bundleName r.kind).or r.name).getD emptyResourceName

/-- What a resource without data and bundles is good for: nothing, but for a bundle. -/
def Kept (r : Resource) : Bool := kindType r.kind = .bundle ∨ r.index ≠ -1 ∨ r.bundles ≠ []

theorem kept_iff (r : Resource) :
    Kept r = true ↔ ¬ (kindType r.kind ≠ .bundle ∧ r.index = -1 ∧ r.bundles.isEmpty) := by
  rw [Kept, decide_eq_true_iff, List.isEmpty_iff, not_and_or, not_and_or, not_ne_iff]

/-- What the loader has of a resource of a mod: its data are where it says that they are, and a
handler has them at hand. -/
structure Brings (content : List UInt8) (m : Mod) (r : Resource) (asset : ModResource) : Prop where
  type_eq : asset.type = kindType r.kind
  name_eq : asset.name = assetName r
  bundles_eq : asset.bundles = r.bundles
  resourceIndex_eq : asset.resourceIndex = r.index
  data : ∀ bytes ∈ resourceData content m.header r.index,
    slice content asset.data.dataOffset.toNat asset.data.size.toNat = bytes ∧
      (asset.handlerHash ≠ 0 → asset.data.buffer = some bytes)

theorem loadResource_eq_ok {r : Resource} {loaded : FrostyResource}
    (h : loadResource r = .ok loaded) :
    loaded.type = kindType r.kind ∧ loaded.resourceIndex = r.index ∧
      loaded.addedBundles = r.bundles ∧ loaded.name = assetName r := by
  cases hfields : typeFields r.kind with
  | error e =>
      rw [loadResource, hfields] at h
      cases h
  | ok fields =>
      rw [loadResource, hfields] at h
      cases h
      refine ⟨rfl, rfl, rfl, ?_⟩
      have hname : fields.bundleName = bundleName r.kind := by
        cases hk : r.kind with
        | res resType resRid resMeta =>
            rw [hk, typeFields] at hfields
            split at hfields <;> cases hfields
            rfl
        | embedded => rw [hk] at hfields; cases hfields; rfl
        | ebx => rw [hk] at hfields; cases hfields; rfl
        | chunk _ _ _ _ _ _ => rw [hk] at hfields; cases hfields; rfl
        | bundle _ _ => rw [hk] at hfields; cases hfields; rfl
      show (fields.bundleName.or r.name).getD emptyResourceName = _
      rw [hname]
      rfl

/-- What the loader keeps at hand for a handler. -/
theorem Placed.buffer_eq (h : Placed content m rt resource i)
    (hread : 0 ≤ rt.soughtPlace resource → rt.readModResource resource =
      ((frostyReadModResource memory decompressEbx rt resource { content }).map
        Prod.fst).toOption) :
    rt.buffer resource =
      some (if resource.handlerHash ≠ 0 then some (dataOf content m.header i) else none) := by
  rw [RTFrostyMod.buffer]
  by_cases hhandler : resource.handlerHash = 0
  · rw [if_neg fun hboth => hboth.2 hhandler, if_neg (not_not_intro hhandler)]
  · rw [if_pos ⟨h.index_ne, hhandler⟩, if_pos hhandler, hread h.soughtPlace_nonneg,
      h.frostyReadModResource_eq hhandler]
    rfl

/-- What is behind a place in the file, from the numbers that the loader keeps. -/
theorem slice_of_numbers (hlength : content.length < 2 ^ 31) (hs : Stored content m.header i) :
    slice content (Int64.ofNat (dataPlace content m.header i)).toUInt64.toUInt32.toNat
      (entry content m.header i).2.toUInt64.toNat = dataOf content m.header i := by
  have hsize := hs.size_le
  have hplace : (Int64.ofNat (dataPlace content m.header i)).toUInt64.toUInt32.toNat =
      dataPlace content m.header i := by
    rw [Int64.toUInt64_ofNat', UInt64.toUInt32_ofNat',
      UInt32.toNat_ofNat_of_lt' (show _ < 2 ^ 32 by omega)]
  have hcount : (entry content m.header i).2.toUInt64.toNat =
      (entry content m.header i).2.toNatClampNeg := by
    obtain ⟨n, hn⟩ : ∃ n, (entry content m.header i).2.toNatClampNeg = n := ⟨_, rfl⟩
    have heq := Int64.ofNat_toNatClampNeg _ hs.size_nonneg
    rw [hn] at heq
    rw [← heq, Int64.toUInt64_ofNat', UInt64.toNat_ofNat_of_lt' (show _ < 2 ^ 64 by omega),
      toNatClampNeg_of_lt (by omega)]
  rw [hplace, hcount]
  rfl

variable (vanilla : VanillaTables) (fbFile : Int32)

/-- What the loop of `LoadMod` makes of a resource, once it has a buffer for it. -/
theorem modResource_eq {buffer : Option (List UInt8)} (h : rt.buffer resource = some buffer) :
    (if resource.type ≠ .bundle ∧ resource.resourceIndex = -1 ∧ resource.addedBundles.isEmpty then
      rt.modResource vanilla fbFile resource = none
    else
      ∃ asset, rt.modResource vanilla fbFile resource = some asset ∧
        asset.type = resource.type ∧ asset.name = resource.name ∧
          asset.bundles = resource.addedBundles ∧ asset.resourceIndex = resource.resourceIndex ∧
            asset.handlerHash = resource.handlerHash ∧ asset.data.buffer = buffer ∧
              asset.data.dataOffset = (rt.locate resource).1.toUInt64.toUInt32 ∧
                asset.data.size = (rt.locate resource).2.toUInt64) := by
  simp only [RTFrostyMod.modResource, h]
  split
  · rfl
  · exact ⟨_, rfl, rfl, rfl, rfl, rfl, rfl, rfl, rfl, rfl⟩

theorem modResource_brings {r : Resource} {loaded : FrostyResource}
    (hload : loadResource r = .ok loaded) (hlength : content.length < 2 ^ 31)
    (hstored : r.index ≠ -1 → 0 ≤ r.index ∧ Stored content m.header r.index.toNatClampNeg)
    (hoffset : rt.dataOffset = m.header.dataOffset.toInt64)
    (hcount : rt.dataCount = m.header.dataCount.toInt32)
    (hfp : ∀ place, 0 ≤ place →
      (readEntry place { content }).map Prod.fst = .ok (rt.readFp place))
    (hread : 0 ≤ rt.soughtPlace loaded.toRTFrostyResource →
      rt.readModResource loaded.toRTFrostyResource = ((frostyReadModResource memory decompressEbx rt
        loaded.toRTFrostyResource { content }).map Prod.fst).toOption) :
    if Kept r then
      ∃ asset, rt.modResource vanilla fbFile loaded.toRTFrostyResource = some asset ∧
        Brings content m r asset
    else
      rt.modResource vanilla fbFile loaded.toRTFrostyResource = none := by
  obtain ⟨htype, hindex, hbundles, hname⟩ := loadResource_eq_ok hload
  have hplaced : r.index ≠ -1 → Placed content m rt loaded.toRTFrostyResource
      r.index.toNatClampNeg := by
    intro hne
    obtain ⟨hnonneg, hs⟩ := hstored hne
    exact ⟨hlength, hoffset, hcount, hindex.trans (Int32.ofNat_toNatClampNeg _ hnonneg).symm, hs⟩
  have hkept : Kept r = true ↔ ¬ (loaded.type ≠ .bundle ∧ loaded.resourceIndex = -1 ∧
      loaded.addedBundles.isEmpty) := by
    rw [htype, hindex, hbundles]
    exact kept_iff r
  obtain ⟨buffer, hbuffer, hdata⟩ : ∃ buffer, rt.buffer loaded.toRTFrostyResource = some buffer ∧
      ∀ bytes ∈ resourceData content m.header r.index, loaded.handlerHash ≠ 0 →
        buffer = some bytes := by
    by_cases hne : r.index = -1
    · refine ⟨none, ?_, fun bytes hbytes => ?_⟩
      · rw [RTFrostyMod.buffer, if_neg fun h => h.1 (hindex.trans hne)]
      · rw [resourceData, if_pos hne] at hbytes
        cases hbytes
    · refine ⟨_, (hplaced hne).buffer_eq hread, fun bytes hbytes hhandler => ?_⟩
      rw [resourceData, if_neg hne] at hbytes
      cases hbytes
      exact if_pos hhandler
  have hresource := modResource_eq vanilla fbFile hbuffer
  by_cases hk : Kept r = true
  · rw [if_neg (hkept.mp hk)] at hresource
    obtain ⟨asset, hasset, htype', hname', hbundles', hindex', hhash', hbuffer', hplace', hsize'⟩ :=
      hresource
    rw [if_pos hk]
    refine ⟨asset, hasset, htype'.trans htype, hname'.trans hname, hbundles'.trans hbundles,
      hindex'.trans hindex, fun bytes hbytes => ?_⟩
    refine ⟨?_, fun hhandler => ?_⟩
    · by_cases hne : r.index = -1
      · rw [resourceData, if_pos hne] at hbytes
        cases hbytes
      · rw [resourceData, if_neg hne] at hbytes
        cases hbytes
        rw [hplace', hsize', (hplaced hne).locate_eq hfp]
        exact slice_of_numbers hlength (hstored hne).2
    · rw [hbuffer']
      exact hdata bytes hbytes (hhash' ▸ hhandler)
  · rw [if_pos (Classical.byContradiction fun h => hk (hkept.mpr h))] at hresource
    rwa [if_neg hk]

end Kyber.ModLoader.Rt
