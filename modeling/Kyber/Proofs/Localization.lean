import Kyber.Lib.Maps
import Kyber.Lib.Writes
import Kyber.ModLoader.Localization
import Kyber.Proofs.ByteBuffer

/-!
# Merging localized strings

Loading strings never fails: past the end of the data zeros are read, which end a string.
What is read does not depend on what has been loaded before, so loading inserts a list of
entries (`insertAll`), and of two strings with one hash the later is kept. The strings of
a resource are those that are there when it is loaded alone.

`RunHandler` loads the resources of an asset from the last in the vector to the first, so
for each hash the first resource in the vector that has it wins.
-/

namespace Kyber.ModLoader

open Kyber.Lib

/-! ## Reading the strings -/

theorem getShort_eq_zero {s : ByteBuffer} (h : s.buf.length < s.rpos + 2) :
    getShort s = .ok (0, s.skip 2) := by
  have hread : read 2 s = .ok ([0, 0], s.skip 2) := by
    show Except.ok (if s.rpos + 2 ≤ s.buf.length then s.rest.take 2 else List.replicate 2 0, _) = _
    rw [if_neg (by omega)]
    rfl
  rw [getShort, BufM.bind_ok hread]
  rfl

/-- There are enough rounds. -/
theorem wideRounds_ok {n : Nat} {s : ByteBuffer} (h : s.buf.length - s.rpos < 2 * n) :
    ∃ str s', wideRounds n s = .ok (str, s') := by
  induction n generalizing s with
  | zero => omega
  | succ n ih =>
      obtain ⟨c, hc⟩ : ∃ c, getShort s = .ok (c, s.skip 2) := ⟨_, rfl⟩
      rw [wideRounds, BufM.bind_ok hc]
      by_cases hzero : c = 0
      · rw [if_pos hzero]
        exact ⟨[], s.skip 2, rfl⟩
      · have hin : s.rpos + 2 ≤ s.buf.length := by
          by_contra hend
          have hc' := getShort_eq_zero (Nat.lt_of_not_le hend)
          cases hc.symm.trans hc'
          exact hzero rfl
        have hleft : (s.skip 2).buf.length - (s.skip 2).rpos < 2 * n := by
          show s.buf.length - (s.rpos + 2) < 2 * n
          omega
        obtain ⟨str, s', hrest⟩ := ih hleft
        rw [if_neg hzero, BufM.bind_ok hrest]
        exact ⟨c :: str, s', rfl⟩

theorem getNullTerminatedWideString_ok (s : ByteBuffer) :
    ∃ str s', getNullTerminatedWideString s = .ok (str, s') := by
  have hget : (get : BufM ByteBuffer) s = .ok (s, s) := rfl
  rw [getNullTerminatedWideString, BufM.bind_ok hget]
  exact wideRounds_ok (by omega)

namespace LocalizationMergeData

def insertAll (data : LocalizationMergeData) (entries : List (UInt32 × WideString)) :
    LocalizationMergeData :=
  entries.foldl (fun data entry => { strings := data.strings.insert entry.1 entry.2 }) data

/-- The last entry of a hash is kept, and what was there if there is none. -/
theorem insertAll_strings (data : LocalizationMergeData) (entries : List (UInt32 × WideString))
    (k : UInt32) : (data.insertAll entries).strings[k]? =
      (entries.reverse.findSome? fun entry => if entry.1 = k then some entry.2 else none).or
        data.strings[k]? := by
  refine foldl_last_write (fun (data : LocalizationMergeData) k => data.strings[k]?)
    (fun (entry : UInt32 × WideString) k => if entry.1 = k then some entry.2 else none) ?_
    entries data
  intro data entry
  rw [getElem?_insert_eq]
  by_cases hk : k = entry.1
  · rw [if_pos hk, if_pos hk.symm]
    rfl
  · rw [if_neg hk, if_neg (Ne.symm hk)]
    rfl

theorem insertAll_empty (data : LocalizationMergeData) (entries : List (UInt32 × WideString))
    (k : UInt32) : (data.insertAll entries).strings[k]? =
      (insertAll {} entries).strings[k]?.or data.strings[k]? := by
  have hempty : ({} : LocalizationMergeData).strings[k]? = none := rfl
  rw [insertAll_strings, insertAll_strings {}, hempty, Option.or_none]

/-- The entries that are read are the same for all data. -/
theorem loadStrings_ok (n : Nat) (s : ByteBuffer) :
    ∃ entries s', ∀ data, loadStrings n data s = .ok (data.insertAll entries, s') := by
  induction n generalizing s with
  | zero => exact ⟨[], s, fun data => rfl⟩
  | succ n ih =>
      obtain ⟨hash, hhash⟩ : ∃ hash, getInt s = .ok (hash, s.skip 4) := ⟨_, rfl⟩
      obtain ⟨str, s₁, hstr⟩ := getNullTerminatedWideString_ok (s.skip 4)
      obtain ⟨entries, s', hrest⟩ := ih s₁
      refine ⟨(hash, str) :: entries, s', fun data => ?_⟩
      rw [loadStrings, BufM.bind_ok hhash, BufM.bind_ok hstr, hrest]
      rfl

theorem load_ok (s : ByteBuffer) :
    ∃ entries s', ∀ data : LocalizationMergeData, data.load s = .ok (data.insertAll entries, s') := by
  obtain ⟨magic, hmagic⟩ : ∃ magic, getInt s = .ok (magic, s.skip 4) := ⟨_, rfl⟩
  by_cases hversion : magic ≠ 0xABCD0001
  · obtain ⟨entries, s', hentries⟩ :=
      loadStrings_ok (if magic.toNat < 2 ^ 31 then magic.toNat else 0) (s.skip 4)
    refine ⟨entries, s', fun data => ?_⟩
    rw [load, BufM.bind_ok hmagic, if_pos hversion]
    exact hentries data
  · obtain ⟨count, hcount⟩ : ∃ count, getInt (s.skip 4) = .ok (count, (s.skip 4).skip 4) :=
      ⟨_, rfl⟩
    obtain ⟨entries, s', hentries⟩ :=
      loadStrings_ok (if count.toNat < 2 ^ 31 then count.toNat else 0) ((s.skip 4).skip 4)
    refine ⟨entries, s', fun data => ?_⟩
    rw [load, BufM.bind_ok hmagic, if_neg hversion, BufM.bind_ok hcount]
    exact hentries data

end LocalizationMergeData

/-! ## The loop over the resources -/

/-- What the handler loads from a resource. -/
def ModResource.loadStrings (r : ModResource) : Except Fault LocalizationMergeData := do
  let buf ← r.data.toByteBuffer
  let (_, buf) ← getNullTerminatedString.run buf
  let (data, _) ← (LocalizationMergeData.load {}).run buf
  return data

/-- The string that a resource has for a hash. -/
def ModResource.string (r : ModResource) (k : UInt32) : Option WideString :=
  r.loadStrings.toOption.bind (·.strings[k]?)

section

variable {δ : Type} (derived : Derived LocalizationMergeData δ)

/-- The string that has been loaded for a hash. -/
def stringOf (handlerData : Std.TreeMap UInt32 δ) (hash k : UInt32) : Option WideString :=
  (handlerData[hash]?.bind derived.dynamicCast).bind (·.strings[k]?)

variable {derived} {handlers : UInt32 → Option (CustomAssetHandler δ)}
  {handlerData : Std.TreeMap UInt32 δ} {r : ModResource}

theorem stringOf_of_get {hash : UInt32} {data : LocalizationMergeData}
    (h : handlerData[hash]? = some (derived.upcast data)) (k : UInt32) :
    stringOf derived handlerData hash k = data.strings[k]? := by
  rw [stringOf, h, Option.bind_some, derived.dynamicCast_upcast, Option.bind_some]

/-- A resource's strings go over those that are there. -/
theorem loadResource_ok (hhandler : handlers r.handler = some (localizationHandler derived))
    (hbuffer : r.data.buffer.isSome) {data : LocalizationMergeData}
    (hdata : handlerData[r.handler]? = some (derived.upcast data)) :
    ∃ data', loadResource handlers handlerData r
        = .ok (handlerData.insert r.handler (derived.upcast data')) ∧
      ∀ k, data'.strings[k]? = (r.string k).or data.strings[k]? := by
  obtain ⟨buf, hbuf⟩ : ∃ buf, r.data.toByteBuffer = .ok buf := by
    obtain ⟨buffer, hbuffer⟩ := Option.isSome_iff_exists.mp hbuffer
    rw [ModResourceData.toByteBuffer, hbuffer]
    exact ⟨_, rfl⟩
  obtain ⟨typeName, s, hname⟩ : ∃ typeName s, getNullTerminatedString buf = .ok (typeName, s) :=
    ⟨_, _, rfl⟩
  obtain ⟨entries, s', hentries⟩ := LocalizationMergeData.load_ok s
  have hstring : ∀ k, r.string k = (LocalizationMergeData.insertAll {} entries).strings[k]? := by
    intro k
    have hload : r.loadStrings = .ok (LocalizationMergeData.insertAll {} entries) := by
      simp only [ModResource.loadStrings, StateT.run, hbuf, except_ok_bind, hname, hentries]
      rfl
    rw [ModResource.string, hload]
    rfl
  refine ⟨data.insertAll entries, ?_, fun k => ?_⟩
  · have hload : (localizationHandler derived).load (derived.upcast data) s
        = .ok (derived.upcast (data.insertAll entries), s') := by
      rw [localizationHandler, genericCustomAssetHandler]
      simp only [derived.dynamicCast_upcast]
      rw [BufM.bind_ok (hentries data)]
      rfl
    simp only [loadResource, StateT.run, hbuf, hhandler, hdata, except_ok_bind, hname, hload]
    rfl
  · rw [LocalizationMergeData.insertAll_empty, hstring]

/-- There is an object of strings for each resource. -/
def HasStrings (derived : Derived LocalizationMergeData δ) (resources : List ModResource)
    (handlerData : Std.TreeMap UInt32 δ) : Prop :=
  ∀ r ∈ resources, ∃ data, handlerData[r.handler]? = some (derived.upcast data)

variable {resources : List ModResource}

/-- One round of the loop: it does not fail, and the strings of the resource are there. -/
theorem loadResource_spec
    (hresources : ∀ r ∈ resources, handlers r.handler = some (localizationHandler derived) ∧
      r.data.buffer.isSome)
    (h : HasStrings derived resources handlerData) (hr : r ∈ resources) :
    ∃ handlerData', loadResource handlers handlerData r = .ok handlerData' ∧
      HasStrings derived resources handlerData' ∧
      ∀ hash k, stringOf derived handlerData' hash k =
        (if r.handler = hash then r.string k else none).or (stringOf derived handlerData hash k) := by
  obtain ⟨hhandler, hbuffer⟩ := hresources r hr
  obtain ⟨data, hdata⟩ := h r hr
  obtain ⟨data', hload, hstrings⟩ := loadResource_ok hhandler hbuffer hdata
  refine ⟨_, hload, ?_, ?_⟩
  · intro r' hr'
    rw [getElem?_insert_eq]
    split
    · exact ⟨data', rfl⟩
    · exact h r' hr'
  · intro hash k
    by_cases hhash : r.handler = hash
    · subst hhash
      have hnew : (handlerData.insert r.handler (derived.upcast data'))[r.handler]?
          = some (derived.upcast data') := by rw [getElem?_insert_eq, if_pos rfl]
      rw [if_pos rfl, stringOf_of_get hnew, stringOf_of_get hdata, hstrings]
    · rw [if_neg hhash, Option.none_or, stringOf, stringOf, getElem?_insert_eq,
        if_neg (Ne.symm hhash)]

/-- Each handler of the resources has an object that has just been created. -/
theorem createData_get (handlers : UInt32 → Option (CustomAssetHandler δ))
    (resources : List ModResource) (hash : UInt32) :
    (createData handlers resources)[hash]? =
      if hash ∈ resources.map ModResource.handler
      then (handlers hash).map CustomAssetHandler.create else none := by
  let view (handlerData : Std.TreeMap UInt32 δ) (hash : UInt32) := handlerData[hash]?
  let writes (key hash : UInt32) := if key = hash
    then (handlers hash).map CustomAssetHandler.create else none
  have hstep : ∀ handlerData key, view (createObject handlers handlerData key) hash
      = (writes key hash).or (view handlerData hash) := by
    intro handlerData key
    unfold view writes createObject
    by_cases hkey : key = hash
    · subst hkey
      rw [if_pos rfl]
      cases handlers key with
      | none => rfl
      | some handler => rw [getElem?_insert_eq, if_pos rfl, Option.map_some, Option.some_or]
    · rw [if_neg hkey, Option.none_or]
      cases handlers key with
      | none => rfl
      | some handler => rw [getElem?_insert_eq, if_neg (Ne.symm hkey)]
  have hview := foldl_last_write view writes hstep
    (Std.TreeSet.ofList (resources.map ModResource.handler)).toList {}
  have hmem : hash ∈ (Std.TreeSet.ofList (resources.map ModResource.handler)).toList.reverse ↔
      hash ∈ resources.map ModResource.handler := by
    rw [List.mem_reverse, Std.TreeSet.mem_toList, Std.TreeSet.mem_ofList]
    exact List.contains_iff_mem
  refine hview.trans ?_
  rw [findSome?_ite_eq, if_congr hmem rfl rfl]
  exact Option.or_none

/-- The resources of the asset that a handler is to merge. -/
def ModResource.merges (name : ByteString) (r : ModResource) : Bool :=
  r.type == .ebx && r.name == name && r.handlerHash != 0

section

variable (handlers) (name : ByteString) (stage : LoadStage)

/-- The handler of the resource is of this stage. -/
def ModResource.isAt (r : ModResource) : Bool :=
  match handlers r.handler with
  | none => false
  | some handler => handler.loadStage = stage

theorem isHandled_of_not_merges {r : ModResource} (h : r.merges name = false) :
    r.isHandled handlers name stage = .ok false := by
  unfold ModResource.isHandled
  split
  · rfl
  · next hasset =>
      split
      · rfl
      · next hhash =>
          push Not at hasset
          simp [ModResource.merges, hasset.1, hasset.2, hhash] at h

theorem isHandled_of_merges {r : ModResource} (h : r.merges name = true) :
    r.isHandled handlers name stage =
      if (handlers r.handler).isSome then .ok (r.isAt handlers stage) else .error .outOfBounds := by
  simp only [ModResource.merges, Bool.and_eq_true, beq_iff_eq, bne_iff_ne] at h
  obtain ⟨⟨htype, hname⟩, hhash⟩ := h
  rw [ModResource.isHandled, if_neg (by simp [htype, hname]), if_neg hhash, ModResource.isAt]
  cases handlers r.handler <;> rfl

/-- The loop gets through exactly if all handlers that the asset's resources name are there. -/
theorem handledResources_eq_ok_iff {rs resources : List ModResource} :
    handledResources handlers name stage rs = .ok resources ↔
      (∀ r ∈ rs, r.merges name → (handlers r.handler).isSome) ∧
        resources = rs.filter fun r => r.merges name && r.isAt handlers stage := by
  induction rs generalizing resources with
  | nil =>
      constructor
      · intro h
        cases h
        exact ⟨fun r hr => absurd hr List.not_mem_nil, rfl⟩
      · rintro ⟨-, rfl⟩
        rfl
  | cons r rs ih =>
      rw [handledResources, List.forall_mem_cons]
      cases hmerges : r.merges name with
      | false =>
          rw [isHandled_of_not_merges handlers name stage hmerges, except_ok_bind,
            List.filter_cons_of_neg (by simp [hmerges])]
          simp only [Bool.false_eq_true, if_false, false_implies, true_and]
          rw [← ih]
          constructor
          · intro h
            obtain ⟨rest, hrest, h⟩ := bind_eq_ok h
            cases h
            exact hrest
          · intro h
            rw [h]
            rfl
      | true =>
          rw [isHandled_of_merges handlers name stage hmerges]
          by_cases hhandler : (handlers r.handler).isSome = true
          · rw [if_pos hhandler, except_ok_bind]
            simp only [hhandler, true_implies, true_and]
            constructor
            · intro h
              obtain ⟨rest, hrest, h⟩ := bind_eq_ok h
              cases h
              obtain ⟨hall, rfl⟩ := ih.mp hrest
              refine ⟨hall, ?_⟩
              rw [List.filter_cons, hmerges, Bool.true_and]
            · rintro ⟨hall, rfl⟩
              rw [ih.mpr ⟨hall, rfl⟩, List.filter_cons, hmerges, Bool.true_and]
              rfl
          · rw [if_neg hhandler]
            simp only [hhandler, true_implies]
            constructor
            · intro h
              cases h
            · rintro ⟨⟨hfalse, -⟩, -⟩
              exact absurd hfalse Bool.false_ne_true

end

/-- The mods' data for the asset are all strings. -/
def TextDatabase (derived : Derived LocalizationMergeData δ)
    (handlers : UInt32 → Option (CustomAssetHandler δ)) (name : ByteString)
    (modResources : List ModResource) : Prop :=
  ∀ r ∈ modResources, r.merges name → handlers r.handler = some (localizationHandler derived) ∧
    r.data.buffer.isSome

variable {name : ByteString} {modResources : List ModResource}

theorem handledResources_eq (h : TextDatabase derived handlers name modResources) :
    handledResources handlers name .postLoad modResources
      = .ok (modResources.filter (·.merges name)) := by
  refine (handledResources_eq_ok_iff handlers name .postLoad).mpr ⟨fun r hr hmerges => ?_, ?_⟩
  · rw [(h r hr hmerges).1]
    rfl
  · refine List.filter_congr fun r hr => ?_
    cases hmerges : r.merges name with
    | false => rfl
    | true =>
        rw [ModResource.isAt, (h r hr hmerges).1]
        rfl

/-- The objects that have just been created are there and have no strings. -/
theorem createData_strings
    (hresources : ∀ r ∈ resources, handlers r.handler = some (localizationHandler derived) ∧
      r.data.buffer.isSome) :
    HasStrings derived resources (createData handlers resources) ∧
      ∀ hash k, stringOf derived (createData handlers resources) hash k = none := by
  have hget : ∀ r ∈ resources,
      (createData handlers resources)[r.handler]? = some (derived.upcast {}) := by
    intro r hr
    rw [createData_get, if_pos (List.mem_map_of_mem hr), (hresources r hr).1]
    rfl
  refine ⟨fun r hr => ⟨{}, hget r hr⟩, fun hash k => ?_⟩
  by_cases hhash : hash ∈ resources.map ModResource.handler
  · obtain ⟨r, hr, rfl⟩ := List.mem_map.mp hhash
    rw [stringOf_of_get (hget r hr)]
    rfl
  · rw [stringOf, createData_get, if_neg hhash]
    rfl

/-- For each hash the first resource in the vector that has a string wins. -/
theorem runHandler_strings (h : TextDatabase derived handlers name modResources) :
    ∃ handlerData, runHandler handlers modResources name .postLoad = .ok handlerData ∧
      ∀ hash k, stringOf derived handlerData hash k =
        (modResources.filter (·.merges name)).findSome? fun r =>
          if r.handler = hash then r.string k else none := by
  let resources := modResources.filter (·.merges name)
  have hresources : ∀ r ∈ resources,
      handlers r.handler = some (localizationHandler derived) ∧ r.data.buffer.isSome := by
    intro r hr
    obtain ⟨hmem, hmerges⟩ := List.mem_filter.mp hr
    exact h r hmem hmerges
  obtain ⟨hcreated, hempty⟩ := createData_strings hresources
  have hround : ∀ handlerData r handlerData', HasStrings derived resources handlerData →
      r ∈ resources.reverse → loadResource handlers handlerData r = .ok handlerData' →
      HasStrings derived resources handlerData' ∧ ∀ hash k, stringOf derived handlerData' hash k =
        (if r.handler = hash then r.string k else none).or (stringOf derived handlerData hash k) := by
    intro handlerData r handlerData' hinv hr hload
    obtain ⟨handlerData'', hload', hspec⟩ :=
      loadResource_spec hresources hinv (List.mem_reverse.mp hr)
    cases hload.symm.trans hload'
    exact hspec
  obtain ⟨handlerData, hrun⟩ := (foldlM_ok_iff (HasStrings derived resources) (P := fun _ => True)
    (fun handlerData hinv r hr => by
      obtain ⟨handlerData', hload, -⟩ :=
        loadResource_spec hresources hinv (List.mem_reverse.mp hr)
      exact ⟨fun _ => trivial, fun _ => ⟨handlerData', hload⟩⟩)
    (fun handlerData r handlerData' hinv hr hload => (hround _ _ _ hinv hr hload).1) hcreated).mpr
    fun _ _ => trivial
  refine ⟨handlerData, ?_, fun hash k => ?_⟩
  · rw [runHandler, handledResources_eq h, except_ok_bind]
    exact hrun
  · have hlast := foldlM_last_write (fun handlerData (key : UInt32 × UInt32) =>
        stringOf derived handlerData key.1 key.2)
      (fun r (key : UInt32 × UInt32) => if r.handler = key.1 then r.string key.2 else none)
      (HasStrings derived resources) (k := (hash, k)) (fun handlerData r handlerData' hinv hr hload =>
        (hround _ _ _ hinv hr hload).imp id fun hview => hview hash k) hcreated hrun
    rw [hempty, Option.or_none, List.reverse_reverse] at hlast
    exact hlast

end

end Kyber.ModLoader
