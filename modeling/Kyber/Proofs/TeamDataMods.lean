import Kyber.Lib.Writes
import Kyber.ModLoader.WSTeamData
import Kyber.Proofs.Localization
import Mathlib.Data.List.Forall2

/-!
# The team data of several mods

What a mod brings for a team is a payload: the lists in the old format, and behind them, or not,
an update that has them again. Loading a payload without an update adds its lists to what is
there (`TeamLists.add`). Loading one with an update puts the lists of the update in the place of
all that is there, which is the payload's own lists in the old format, but also whatever has been
loaded of other mods (`load_ok`).

So what is there after all payloads are the lists of the last one with an update and of those
behind it. Nothing of the others is lost only if it comes again there
(`teamMods_accumulate_iff`).
-/

namespace Kyber.ModLoader

open Kyber.Lib

/-! ## Payloads -/

/-- What a vector in the data can hold: its count is an `int`. -/
abbrev Counted (α : Type) := { xs : List α // xs.length < 2 ^ 31 }

def vectorBytes {α : Type} (g : α → List UInt8) (xs : Counted α) : List UInt8 :=
  leBytes 4 xs.val.length ++ xs.val.flatMap g

namespace EbxImportReference

/-- What `parseReference` reads. -/
def bytes (ref : EbxImportReference) : List UInt8 :=
  ref.instanceGuid.toList ++ ref.partitionGuid.toList

/-- What `parseReference2` reads. -/
def bytes2 (ref : EbxImportReference) : List UInt8 :=
  ref.partitionGuid.toList ++ ref.instanceGuid.toList

end EbxImportReference

/-- A kit in the old format. -/
def TeamKitMergeData.legacyBytes (kit : TeamKitMergeData) : List UInt8 :=
  kit.kitRef.bytes ++ (leBytes 4 kit.classIdentifier.toNat ++ leBytes 4 kit.gpIdentifier.toNat)

/-- A kit in the new format, and whether it is hidden. -/
def kitBytes (kit : TeamKitMergeData × UInt8) : List UInt8 :=
  kit.1.kitRef.bytes2 ++ (leBytes 4 kit.1.classIdentifier.toNat ++
    (leBytes 4 kit.1.gpIdentifier.toNat ++ [kit.2]))

/-- The part of a payload in the new format. The two GUIDs, the identifier and the abilities are
only written if the team is `added`. -/
structure TeamUpdate where
  version : Int32
  supported : version ≤ WSTeamDataMergeData.kHandlerVersion ∧ version ≠ 2
  added : UInt8
  partitionGuid : Guid
  rootInstanceGuid : Guid
  internalId : UInt32
  wsPlanetId : UInt32
  kits : TeamSlot → Counted (TeamKitMergeData × UInt8)
  apKits : TeamSlot → Counted EbxImportReference
  allPlayerAbilities : Counted EbxImportReference

structure TeamPayload where
  wsFaction : EbxImportReference
  kits : TeamSlot → Counted TeamKitMergeData
  apKits : TeamSlot → Counted EbxImportReference
  update : Option TeamUpdate

namespace TeamUpdate

variable (u : TeamUpdate)

def rootBytes : List UInt8 :=
  u.partitionGuid.toList ++ (u.rootInstanceGuid.toList ++ leBytes 4 u.internalId.toNat)

def listBytes (slot : TeamSlot) : List UInt8 :=
  vectorBytes kitBytes (u.kits slot) ++ vectorBytes EbxImportReference.bytes2 (u.apKits slot)

/-- What is behind the version. -/
def bodyBytes : List UInt8 :=
  [u.added] ++ ((if u.added == 1 then u.rootBytes else []) ++
    (leBytes 4 u.wsPlanetId.toNat ++
      ([.soldiers, .heroes, .specialSoldiers, .vehicles, .heroVehicles].flatMap u.listBytes ++
        if u.added == 1 then vectorBytes EbxImportReference.bytes2 u.allPlayerAbilities else [])))

def bytes : List UInt8 :=
  WSTeamDataMergeData.updateMagic ++ [0] ++ (leBytes 4 u.version.toUInt32.toNat ++ u.bodyBytes)

end TeamUpdate

namespace TeamPayload

variable (p : TeamPayload)

def listBytes (slot : TeamSlot) : List UInt8 :=
  vectorBytes TeamKitMergeData.legacyBytes (p.kits slot) ++
    vectorBytes EbxImportReference.bytes (p.apKits slot)

def legacyBytes : List UInt8 :=
  p.wsFaction.bytes2 ++
    [.soldiers, .specialSoldiers, .heroes, .vehicles, .heroVehicles].flatMap p.listBytes

def bytes : List UInt8 := p.legacyBytes ++ (p.update.map TeamUpdate.bytes).getD []

end TeamPayload

/-! ## What the payloads bring -/

/-- The lists of a team. -/
structure TeamLists where
  kits : TeamSlot → List TeamKitMergeData
  apKits : TeamSlot → List EbxImportReference

/-- A kit and the list that it is in. -/
inductive TeamEntry
  | kit (slot : TeamSlot) (kit : TeamKitMergeData)
  | apKit (slot : TeamSlot) (ref : EbxImportReference)

instance : Membership TeamEntry TeamLists where
  mem lists
    | .kit slot kit => kit ∈ lists.kits slot
    | .apKit slot ref => ref ∈ lists.apKits slot

def WSTeamDataMergeData.lists (data : WSTeamDataMergeData) : TeamLists := ⟨data.kits, data.apKits⟩

def TeamUpdate.lists (u : TeamUpdate) : TeamLists :=
  ⟨fun slot => (u.kits slot).val.map Prod.fst, fun slot => (u.apKits slot).val⟩

namespace TeamPayload

variable (p : TeamPayload)

def isUpdate : Bool := p.update.isSome

/-- The lists in the old format. -/
def legacy : TeamLists := ⟨fun slot => (p.kits slot).val, fun slot => (p.apKits slot).val⟩

/-- The lists that are to be taken. -/
def effective : TeamLists := (p.update.map TeamUpdate.lists).getD p.legacy

end TeamPayload

namespace TeamLists

def empty : TeamLists := ⟨fun _ => [], fun _ => []⟩

def add (old new : TeamLists) : TeamLists :=
  ⟨fun slot => old.kits slot ++ new.kits slot, fun slot => old.apKits slot ++ new.apKits slot⟩

/-- What is there after a payload has been loaded. -/
def load (lists : TeamLists) (p : TeamPayload) : TeamLists :=
  if p.isUpdate then p.effective else lists.add p.effective

theorem load_kits (lists : TeamLists) (p : TeamPayload) (slot : TeamSlot) :
    (lists.load p).kits slot =
      gather TeamPayload.isUpdate (·.effective.kits slot) (lists.kits slot) p := by
  rw [load, gather]
  split <;> rfl

theorem load_apKits (lists : TeamLists) (p : TeamPayload) (slot : TeamSlot) :
    (lists.load p).apKits slot =
      gather TeamPayload.isUpdate (·.effective.apKits slot) (lists.apKits slot) p := by
  rw [load, gather]
  split <;> rfl

theorem foldl_load_kits (payloads : List TeamPayload) (slot : TeamSlot) :
    (payloads.foldl load empty).kits slot =
      gathered TeamPayload.isUpdate (·.effective.kits slot) payloads :=
  (List.foldl_hom (fun lists : TeamLists => lists.kits slot)
    fun lists p => (load_kits lists p slot).symm).symm

theorem foldl_load_apKits (payloads : List TeamPayload) (slot : TeamSlot) :
    (payloads.foldl load empty).apKits slot =
      gathered TeamPayload.isUpdate (·.effective.apKits slot) payloads :=
  (List.foldl_hom (fun lists : TeamLists => lists.apKits slot)
    fun lists p => (load_apKits lists p slot).symm).symm

/-- What is there in the end has been brought. -/
theorem exists_of_mem_foldl_load {payloads : List TeamPayload} {entry : TeamEntry}
    (h : entry ∈ payloads.foldl load empty) : ∃ p ∈ payloads, entry ∈ p.effective := by
  cases entry with
  | kit slot kit =>
      have hmem : kit ∈ (payloads.foldl load empty).kits slot := h
      rw [foldl_load_kits] at hmem
      exact exists_of_mem_gathered hmem
  | apKit slot ref =>
      have hmem : ref ∈ (payloads.foldl load empty).apKits slot := h
      rw [foldl_load_apKits] at hmem
      exact exists_of_mem_gathered hmem

/-- What is brought is there in the end exactly if, when it comes before the last update, it
comes again. -/
theorem mem_foldl_load_iff {payloads : List TeamPayload} (entry : TeamEntry) :
    (∀ p ∈ payloads, entry ∈ p.effective → entry ∈ payloads.foldl load empty) ↔
      ∀ before p after, payloads = before ++ p :: after → p.isUpdate = true →
        (∀ q ∈ after, q.isUpdate = false) →
        ∀ q ∈ before, entry ∈ q.effective → ∃ q' ∈ p :: after, entry ∈ q'.effective := by
  cases entry with
  | kit slot kit =>
      show (∀ p ∈ payloads, _ → kit ∈ (payloads.foldl load empty).kits slot) ↔ _
      rw [foldl_load_kits]
      exact mem_gathered_of_brings_iff
  | apKit slot ref =>
      show (∀ p ∈ payloads, _ → ref ∈ (payloads.foldl load empty).apKits slot) ↔ _
      rw [foldl_load_apKits]
      exact mem_gathered_of_brings_iff

end TeamLists

/-! ## Loading a payload -/

theorem parseReference_reads (ref : EbxImportReference) : Reads parseReference ref.bytes ref :=
  (getBytes16_reads _).bind ((getBytes16_reads _).map _)

theorem parseReference2_reads (ref : EbxImportReference) : Reads parseReference2 ref.bytes2 ref :=
  (getBytes16_reads _).bind ((getBytes16_reads _).map _)

theorem readVector_reads_map {α γ : Type} {r : BufM α} {f : γ → α} {g : γ → List UInt8}
    (xs : Counted γ) (h : ∀ x, Reads r (g x) (f x)) :
    Reads (readVector r) (vectorBytes g xs) (xs.val.map f) := by
  intro F
  have hlen : xs.val.length < 2 ^ 32 := Nat.lt_trans xs.property (by decide)
  have hcount : (UInt32.ofNat xs.val.length).toNat = xs.val.length :=
    UInt32.toNat_ofNat_of_lt' hlen
  have hreads := getInt_reads (UInt32.ofNat xs.val.length) F
  rw [hcount] at hreads
  refine hreads.bind ?_
  rw [hcount, if_pos xs.property]
  exact repeatM_reads_map xs.val fun x _ => h x F

theorem readVector_reads {α : Type} {r : BufM α} {g : α → List UInt8} (xs : Counted α)
    (h : ∀ x, Reads r (g x) x) : Reads (readVector r) (vectorBytes g xs) xs.val := by
  have hreads := readVector_reads_map (f := id) xs h
  rwa [List.map_id] at hreads

/-- Whether something is left of a buffer. -/
theorem bytesRemaining_ok {s : ByteBuffer} (hlen : s.buf.length < 2 ^ 32)
    (hpos : s.rpos ≤ s.buf.length) :
    ∃ n, bytesRemaining s = .ok (n, s) ∧ (n = 0 ↔ s.rest = []) := by
  refine ⟨UInt32.ofNat s.size - UInt32.ofNat s.rpos, rfl, ?_⟩
  have hsize : s.size = s.buf.length := Nat.mod_eq_of_lt hlen
  have hzero : ∀ a b : UInt32, a - b = 0 ↔ a.toNat = b.toNat := fun a b => by
    rw [UInt32.toNat_inj, UInt32.sub_eq_iff_eq_add, UInt32.zero_add]
  rw [hzero, hsize, UInt32.toNat_ofNat_of_lt' hlen,
    UInt32.toNat_ofNat_of_lt' (Nat.lt_of_le_of_lt hpos hlen), ByteBuffer.rest,
    List.drop_eq_nil_iff]
  omega

namespace WSTeamDataMergeData

theorem readLegacyKit_reads (kit : TeamKitMergeData) :
    Reads readLegacyKit kit.legacyBytes kit :=
  (parseReference_reads _).bind ((getInt_reads _).bind ((getInt_reads _).map _))

theorem readKit_reads (kit : TeamKitMergeData × UInt8) : Reads readKit (kitBytes kit) kit.1 :=
  (parseReference2_reads _).bind ((getInt_reads _).bind ((getInt_reads _).bind
    ((getByte_reads _).map _)))

theorem readTeamDataKitReferences_reads (xs : Counted (TeamKitMergeData × UInt8)) :
    Reads readTeamDataKitReferences (vectorBytes kitBytes xs) (xs.val.map Prod.fst) :=
  readVector_reads_map xs readKit_reads

theorem readPointerRefs_reads (xs : Counted EbxImportReference) :
    Reads readPointerRefs (vectorBytes EbxImportReference.bytes2 xs) xs.val :=
  readVector_reads xs parseReference2_reads

/-- Each kind of kit that is left gets more. -/
theorem loadLegacyLists_reads (p : TeamPayload) {slots : List TeamSlot} (h : slots.Nodup)
    (data : WSTeamDataMergeData) :
    Reads (loadLegacyLists slots data) (slots.flatMap p.listBytes)
      { data with
        kits := onKeys (fun slot kits => kits ++ (p.kits slot).val) slots data.kits
        apKits := onKeys (fun slot refs => refs ++ (p.apKits slot).val) slots data.apKits } := by
  induction slots generalizing data with
  | nil =>
      rw [onKeys_nil, onKeys_nil]
      exact Reads.pure data
  | cons slot slots ih =>
      obtain ⟨hslot, hslots⟩ := List.nodup_cons.mp h
      have hrest := ih hslots { data with
        kits := Function.update data.kits slot (data.kits slot ++ (p.kits slot).val)
        apKits := Function.update data.apKits slot (data.apKits slot ++ (p.apKits slot).val) }
      rw [onKeys_update (g := fun slot kits => kits ++ (p.kits slot).val) hslot,
        onKeys_update (g := fun slot refs => refs ++ (p.apKits slot).val) hslot] at hrest
      rw [List.flatMap_cons, TeamPayload.listBytes, List.append_assoc]
      exact (readVector_reads _ readLegacyKit_reads).bind
        ((readVector_reads _ parseReference_reads).bind hrest)

/-- Each kind of kit that is left gets other ones. -/
theorem loadLists_reads (u : TeamUpdate) {slots : List TeamSlot} (h : slots.Nodup)
    (data : WSTeamDataMergeData) :
    Reads (loadLists slots data) (slots.flatMap u.listBytes)
      { data with
        kits := onKeys (fun slot _ => u.lists.kits slot) slots data.kits
        apKits := onKeys (fun slot _ => u.lists.apKits slot) slots data.apKits } := by
  induction slots generalizing data with
  | nil =>
      rw [onKeys_nil, onKeys_nil]
      exact Reads.pure data
  | cons slot slots ih =>
      obtain ⟨hslot, hslots⟩ := List.nodup_cons.mp h
      have hrest := ih hslots { data with
        kits := Function.update data.kits slot (u.lists.kits slot)
        apKits := Function.update data.apKits slot (u.lists.apKits slot) }
      rw [onKeys_update (g := fun slot _ => u.lists.kits slot) hslot,
        onKeys_update (g := fun slot _ => u.lists.apKits slot) hslot] at hrest
      rw [List.flatMap_cons, TeamUpdate.listBytes, List.append_assoc]
      exact (readTeamDataKitReferences_reads _).bind ((readPointerRefs_reads _).bind hrest)

/-- An update's lists are put in the place of all others. -/
theorem loadUpdate_reads (u : TeamUpdate) (data : WSTeamDataMergeData) :
    ∃ data', Reads (loadUpdate data) u.bodyBytes data' ∧ data'.lists = u.lists := by
  have hnodup : [TeamSlot.soldiers, .heroes, .specialSoldiers, .vehicles, .heroVehicles].Nodup := by
    decide
  have hlists := loadLists_reads u hnodup
  have hall : ∀ slot : TeamSlot, slot ∈ [TeamSlot.soldiers, .heroes, .specialSoldiers, .vehicles,
      .heroVehicles] := fun slot => by cases slot <;> decide
  simp only [onKeys_of_forall_mem hall] at hlists
  unfold loadUpdate TeamUpdate.bodyBytes
  cases hadded : u.added == 1 with
  | false =>
      let data' := { data with
        isAdded := false
        wsPlanetId := u.wsPlanetId
        kits := u.lists.kits
        apKits := u.lists.apKits }
      refine ⟨data', (getByte_reads u.added).bind ?_, rfl⟩
      dsimp only
      rw [hadded]
      exact (Reads.pure _).bind ((getInt_reads _).bind ((hlists _).bind (Reads.pure data')))
  | true =>
      let data' := { data with
        isAdded := true
        partitionGuid := u.partitionGuid
        rootInstanceGuid := u.rootInstanceGuid
        internalId := u.internalId
        wsPlanetId := u.wsPlanetId
        kits := u.lists.kits
        apKits := u.lists.apKits
        allPlayerAbilities := u.allPlayerAbilities.val }
      refine ⟨data', (getByte_reads u.added).bind ?_, rfl⟩
      dsimp only
      rw [hadded, TeamUpdate.rootBytes, if_pos rfl, if_pos rfl, List.append_assoc,
        List.append_assoc]
      exact (getBytes16_reads _).bind ((getBytes16_reads _).bind ((getInt_reads _).bind
        ((Reads.pure _).bind ((getInt_reads _).bind ((hlists _).bind
          ((readPointerRefs_reads _).map _))))))

section

variable (p : TeamPayload) (data : WSTeamDataMergeData) {s : ByteBuffer}

theorem rpos_le_of_legacy {tail : List UInt8} (hs : s.rest = p.legacyBytes ++ tail) :
    s.rpos + p.legacyBytes.length ≤ s.buf.length := by
  refine ByteBuffer.le_length_of_rest hs (List.ne_nil_of_length_pos ?_)
  rw [TeamPayload.legacyBytes, EbxImportReference.bytes2, List.length_append, List.length_append,
    Vector.length_toList]
  omega

/-- What is behind the lists in the old format only matters for the faction. -/
theorem loadLegacy_ok {tail : List UInt8} (hs : s.rest = p.legacyBytes ++ tail)
    (hlen : s.buf.length < 2 ^ 32) :
    ∃ data', loadLegacy data s = .ok (data', s.skip p.legacyBytes.length) ∧
      data'.lists = data.lists.add p.legacy := by
  have hall : ∀ slot : TeamSlot, slot ∈ [TeamSlot.soldiers, .specialSoldiers, .heroes, .vehicles,
      .heroVehicles] := fun slot => by cases slot <;> decide
  have hnodup : [TeamSlot.soldiers, .specialSoldiers, .heroes, .vehicles, .heroVehicles].Nodup := by
    decide
  have hlists := loadLegacyLists_reads p hnodup { data with wsFaction := p.wsFaction }
  have hpos := rpos_le_of_legacy p hs
  obtain ⟨n, hn, -⟩ := bytesRemaining_ok (s := s.skip p.legacyBytes.length) hlen hpos
  rw [TeamPayload.legacyBytes, List.append_assoc] at hs
  rw [TeamPayload.legacyBytes, List.length_append, ← ByteBuffer.skip_skip] at hn ⊢
  rw [loadLegacy, (parseReference2_reads _).bind_apply hs,
    hlists.bind_apply (ByteBuffer.rest_skip hs), BufM.bind_ok hn, onKeys_of_forall_mem hall,
    onKeys_of_forall_mem hall]
  split
  · exact ⟨_, rfl, rfl⟩
  · exact ⟨_, rfl, rfl⟩

theorem load_ok (hs : s.rest = p.bytes) (hlen : s.buf.length < 2 ^ 32) :
    ∃ data' s', load data s = .ok (data', s') ∧ data'.lists = data.lists.load p := by
  obtain ⟨data₁, hlegacy, hlists⟩ := loadLegacy_ok p data hs hlen
  obtain ⟨n, hn, hzero⟩ := bytesRemaining_ok (s := s.skip p.legacyBytes.length) hlen
    (rpos_le_of_legacy p hs)
  rw [ByteBuffer.rest_skip hs] at hzero
  have hrest := ByteBuffer.rest_skip hs
  rw [load, BufM.bind_ok hlegacy, BufM.bind_ok hn, TeamLists.load, TeamPayload.isUpdate,
    TeamPayload.effective]
  cases hupdate : p.update with
  | none =>
      rw [hupdate] at hzero
      rw [if_pos (hzero.mpr rfl)]
      exact ⟨data₁, _, rfl, hlists⟩
  | some u =>
      rw [hupdate] at hzero hrest
      have hn : n ≠ 0 := by
        rw [Ne, hzero]
        exact List.cons_ne_nil _ _
      have hmagic : (0 : UInt8) ∉ updateMagic := by decide
      obtain ⟨data', hupdated, hlists'⟩ := loadUpdate_reads u data₁
      have hbody := ByteBuffer.rest_skip (ByteBuffer.rest_skip hrest)
      rw [if_neg hn, (getNullTerminatedString_reads hmagic).bind_apply hrest,
        (getInt_reads _).bind_apply (ByteBuffer.rest_skip hrest), Int32.toInt32_toUInt32,
        if_neg (by simpa using u.supported.1), if_neg u.supported.2,
        hupdated _ _ [] rfl (hbody.trans (List.append_nil _).symm)]
      exact ⟨data', _, rfl, hlists'⟩

end

end WSTeamDataMergeData

/-! ## The mods of a team -/

/-- The resource has a payload for the handler, behind the name of the asset's type. -/
structure Carries (hash : UInt32) (r : ModResource) (p : TeamPayload) : Prop where
  handler : r.handler = hash
  data : ∃ typeName buffer, 0 ∉ typeName ∧ r.data.buffer = some buffer ∧
    buffer.take r.data.size.toUInt32.toNat = typeName ++ [0] ++ p.bytes

/-- The entry is in the object that the handler has loaded into. -/
def Loaded {δ : Type} (derived : Derived WSTeamDataMergeData δ)
    (handlerData : Std.TreeMap UInt32 δ) (hash : UInt32) (entry : TeamEntry) : Prop :=
  ∃ data, handlerData[hash]? = some (derived.upcast data) ∧ entry ∈ data.lists

section

variable {δ : Type} {derived : Derived WSTeamDataMergeData δ}
  {handlers : UInt32 → Option (CustomAssetHandler δ)} {hash : UInt32}
  {handlerData : Std.TreeMap UInt32 δ} {data : WSTeamDataMergeData}

theorem loaded_iff_of_get (hdata : handlerData[hash]? = some (derived.upcast data))
    (entry : TeamEntry) : Loaded derived handlerData hash entry ↔ entry ∈ data.lists := by
  constructor
  · rintro ⟨data', hdata', hentry⟩
    have hcast := congrArg derived.dynamicCast (Option.some.inj (hdata.symm.trans hdata'))
    rw [derived.dynamicCast_upcast, derived.dynamicCast_upcast] at hcast
    rwa [Option.some.inj hcast]
  · intro hentry
    exact ⟨data, hdata, hentry⟩

/-- One round of the loop. -/
theorem loadPayload_ok (hhandler : handlers hash = some (wsTeamDataHandler derived))
    {r : ModResource} {p : TeamPayload} (h : Carries hash r p)
    (hdata : handlerData[hash]? = some (derived.upcast data)) :
    ∃ data', loadResource handlers handlerData r
        = .ok (handlerData.insert hash (derived.upcast data')) ∧
      data'.lists = data.lists.load p := by
  obtain ⟨rfl, typeName, buffer, hname, hbuffer, htake⟩ := h
  have hbuf : r.data.toByteBuffer = .ok (.ofBytes (typeName ++ [0] ++ p.bytes)) := by
    rw [ModResourceData.toByteBuffer, hbuffer]
    dsimp only
    rw [htake]
    rfl
  have hlen : (typeName ++ [0] ++ p.bytes).length < 2 ^ 32 := by
    rw [← htake]
    exact Nat.lt_of_le_of_lt (List.length_take_le _ _) (UInt32.toNat_lt _)
  have hread := getNullTerminatedString_reads hname _ (.ofBytes (typeName ++ [0] ++ p.bytes))
    p.bytes rfl rfl
  obtain ⟨data', s', hload, hlists⟩ := WSTeamDataMergeData.load_ok p data
    (ByteBuffer.rest_skip (s := .ofBytes (typeName ++ [0] ++ p.bytes)) rfl) hlen
  refine ⟨data', ?_, hlists⟩
  have hloadObject : ∀ s, data.load s = .ok (data', s') →
      (wsTeamDataHandler derived).load (derived.upcast data) s = .ok (derived.upcast data', s') := by
    intro s hs
    rw [wsTeamDataHandler, genericCustomAssetHandler]
    simp only [derived.dynamicCast_upcast]
    rw [BufM.bind_ok hs]
    rfl
  simp only [loadResource, StateT.run, hbuf, hhandler, hdata, except_ok_bind, hread,
    hloadObject _ hload]
  rfl

theorem loadPayloads_ok (hhandler : handlers hash = some (wsTeamDataHandler derived))
    {resources : List ModResource} {payloads : List TeamPayload}
    (h : List.Forall₂ (Carries hash) resources payloads)
    (hdata : handlerData[hash]? = some (derived.upcast data)) :
    ∃ handlerData' data', resources.foldlM (loadResource handlers) handlerData = .ok handlerData' ∧
      handlerData'[hash]? = some (derived.upcast data') ∧
      data'.lists = payloads.foldl TeamLists.load data.lists := by
  induction h generalizing handlerData data with
  | nil => exact ⟨handlerData, data, rfl, hdata, rfl⟩
  | @cons r p resources payloads hr _ ih =>
      obtain ⟨data₁, hload, hlists⟩ := loadPayload_ok hhandler hr hdata
      have hnew : (handlerData.insert hash (derived.upcast data₁))[hash]?
          = some (derived.upcast data₁) := by rw [getElem?_insert_eq, if_pos rfl]
      obtain ⟨handlerData', data', hrest, hdata', hlists'⟩ := ih hnew
      refine ⟨handlerData', data', ?_, hdata', ?_⟩
      · rw [List.foldlM_cons, hload, except_ok_bind, hrest]
      · rw [hlists', hlists, List.foldl_cons]

variable {name : ByteString} {modResources : List ModResource} {payloads : List TeamPayload}

/-- The loop does not fail, and what is there after it is what the payloads leave. -/
theorem runHandler_teamData (hhandler : handlers hash = some (wsTeamDataHandler derived))
    (h : List.Forall₂ (Carries hash) (modResources.filter (·.merges name)).reverse payloads) :
    ∃ handlerData, runHandler handlers modResources name .referencesResolved = .ok handlerData ∧
      ∀ entry, Loaded derived handlerData hash entry ↔
        entry ∈ payloads.foldl TeamLists.load .empty := by
  let resources := modResources.filter (·.merges name)
  have hhash : ∀ r ∈ resources, r.handler = hash := by
    intro r hr
    have hall := (List.forall₂_and_left (p := fun r => r.handler = hash) _ _).mp
      (h.imp fun r p hcarries => And.intro hcarries.handler hcarries)
    exact hall.1 r (List.mem_reverse.mpr hr)
  have hhandled : handledResources handlers name .referencesResolved modResources
      = .ok resources := by
    have hfound : ∀ r ∈ modResources, r.merges name →
        handlers r.handler = some (wsTeamDataHandler derived) := fun r hr hmerges => by
      rw [hhash r (List.mem_filter.mpr ⟨hr, hmerges⟩), hhandler]
    refine (handledResources_eq_ok_iff handlers name .referencesResolved).mpr
      ⟨fun r hr hmerges => by rw [hfound r hr hmerges, Option.isSome_some], ?_⟩
    refine List.filter_congr fun r hr => ?_
    cases hmerges : r.merges name with
    | false => rfl
    | true =>
        rw [ModResource.isAt, hfound r hr hmerges]
        rfl
  rw [runHandler, hhandled, except_ok_bind]
  by_cases hnil : resources = []
  · have hpayloads : payloads = [] := by
      rw [show modResources.filter (·.merges name) = [] from hnil] at h
      exact List.forall₂_nil_left_iff.mp h
    rw [hnil, hpayloads]
    refine ⟨_, rfl, fun entry => ⟨?_, ?_⟩⟩
    · rintro ⟨data, hdata, -⟩
      cases hdata
    · intro hentry
      cases entry with
      | kit => cases hentry
      | apKit => cases hentry
  · obtain ⟨r, hr⟩ := List.exists_mem_of_ne_nil _ hnil
    have hcreated : (createData handlers resources)[hash]? = some (derived.upcast {}) := by
      rw [createData_get, if_pos (hhash r hr ▸ List.mem_map_of_mem hr), hhandler]
      rfl
    obtain ⟨handlerData, data, hrun, hdata, hlists⟩ := loadPayloads_ok hhandler h hcreated
    refine ⟨handlerData, hrun, fun entry => ?_⟩
    rw [loaded_iff_of_get hdata, hlists]
    rfl

/-- All that the payloads bring is merged, and nothing that is only in the old lists of a payload
that has newer ones. -/
def Accumulates (derived : Derived WSTeamDataMergeData δ)
    (handlers : UInt32 → Option (CustomAssetHandler δ)) (hash : UInt32) (name : ByteString)
    (modResources : List ModResource) (payloads : List TeamPayload) : Prop :=
  ∃ handlerData, runHandler handlers modResources name .referencesResolved = .ok handlerData ∧
    (∀ p ∈ payloads, ∀ entry ∈ p.effective, Loaded derived handlerData hash entry) ∧
    ∀ p ∈ payloads, p.isUpdate = true → ∀ entry ∈ p.legacy,
      (∀ q ∈ payloads, entry ∉ q.effective) → ¬ Loaded derived handlerData hash entry

/-- What a payload brings that is loaded before the last one with an update is brought again by
that one or a later one. -/
def BroughtAgain (payloads : List TeamPayload) : Prop :=
  ∀ before p after, payloads = before ++ p :: after → p.isUpdate = true →
    (∀ q ∈ after, q.isUpdate = false) →
    ∀ q ∈ before, ∀ entry ∈ q.effective, ∃ q' ∈ p :: after, entry ∈ q'.effective

/-- The mods of a team accumulate exactly if nothing is before an update that is not behind it
too. -/
theorem teamMods_accumulate_iff (hhandler : handlers hash = some (wsTeamDataHandler derived))
    (h : List.Forall₂ (Carries hash) (modResources.filter (·.merges name)).reverse payloads) :
    Accumulates derived handlers hash name modResources payloads ↔ BroughtAgain payloads := by
  obtain ⟨handlerData, hrun, hloaded⟩ := runHandler_teamData hhandler h
  constructor
  · rintro ⟨handlerData', hrun', hall, -⟩ before p after hsplit hp hafter q hq entry hentry
    cases hrun.symm.trans hrun'
    have hkept : ∀ p ∈ payloads, entry ∈ p.effective → entry ∈ payloads.foldl TeamLists.load .empty :=
      fun p hp hentry => (hloaded entry).mp (hall p hp entry hentry)
    exact (TeamLists.mem_foldl_load_iff entry).mp hkept before p after hsplit hp hafter q hq hentry
  · intro hagain
    refine ⟨handlerData, hrun, ?_, ?_⟩
    · intro p hp entry hentry
      refine (hloaded entry).mpr ((TeamLists.mem_foldl_load_iff entry).mpr ?_ p hp hentry)
      intro before p after hsplit hp hafter q hq
      exact hagain before p after hsplit hp hafter q hq entry
    · intro p _ _ entry _ honly hmerged
      obtain ⟨q, hq, hentry⟩ := TeamLists.exists_of_mem_foldl_load ((hloaded entry).mp hmerged)
      exact honly q hq hentry

end

/-! A mod with a soldier, and one with an update. -/

def sampleKit : TeamKitMergeData := ⟨⟨.zero, .zero⟩, 1, 2⟩

/-- A payload that only has soldiers. -/
def samplePayload (soldiers : Counted TeamKitMergeData) (update : Option TeamUpdate) :
    TeamPayload where
  wsFaction := ⟨.zero, .zero⟩
  kits slot := if slot = .soldiers then soldiers else ⟨[], by decide⟩
  apKits _ := ⟨[], by decide⟩
  update

def sampleUpdate (soldiers : Counted (TeamKitMergeData × UInt8)) : TeamUpdate where
  version := 3
  supported := by decide
  added := 0
  partitionGuid := .zero
  rootInstanceGuid := .zero
  internalId := 0
  wsPlanetId := 0
  kits slot := if slot = .soldiers then soldiers else ⟨[], by decide⟩
  apKits _ := ⟨[], by decide⟩
  allPlayerAbilities := ⟨[], by decide⟩

def payloadResource (p : TeamPayload) : ModResource where
  type := .ebx
  name := []
  bundles := []
  handlerHash := 1
  resourceIndex := 0
  dupedWithHandler := false
  data := {
    size := UInt64.ofNat (p.bytes.length + 1)
    originalSize := 0
    buffer := some ([0] ++ p.bytes)
    fbFile := 0
    dataOffset := 0
    resType := 0
    resRid := 0
    resMeta := .replicate 16 0
    rangeStart := 0
    rangeEnd := 0
    logicalOffset := 0
    logicalSize := 0
    h32 := 0
    firstMip := 0 }
  uniqueIdWithType := 0

theorem payloadResource_carries {p : TeamPayload} (hlen : p.bytes.length + 1 < 2 ^ 32) :
    Carries 1 (payloadResource p) p := by
  refine ⟨rfl, [], [0] ++ p.bytes, List.not_mem_nil, rfl, List.take_of_length_le ?_⟩
  have hsize : (UInt64.ofNat (p.bytes.length + 1)).toUInt32.toNat = p.bytes.length + 1 := by
    rw [UInt64.toNat_toUInt32, UInt64.toNat_ofNat_of_lt' (Nat.lt_trans hlen (by decide)),
      Nat.mod_eq_of_lt hlen]
  show ([0] ++ p.bytes).length ≤ (UInt64.ofNat (p.bytes.length + 1)).toUInt32.toNat
  rw [hsize, List.length_append, List.length_singleton, Nat.add_comm]

def sampleDerived : Derived WSTeamDataMergeData WSTeamDataMergeData := ⟨id, some, fun _ => rfl⟩

def sampleHandlers (_ : UInt32) : Option (CustomAssetHandler WSTeamDataMergeData) :=
  some (wsTeamDataHandler sampleDerived)

/-- A mod with a soldier, and over it one with an update that has these soldiers. -/
def samplePayloads (soldiers : Counted (TeamKitMergeData × UInt8)) : List TeamPayload :=
  [samplePayload ⟨[sampleKit], by decide⟩ none,
    samplePayload ⟨[], by decide⟩ (some (sampleUpdate soldiers))]

/-- The resource of the higher priority is first. -/
def sampleResources (soldiers : Counted (TeamKitMergeData × UInt8)) : List ModResource :=
  (samplePayloads soldiers).reverse.map payloadResource

theorem sampleResources_carry (soldiers : Counted (TeamKitMergeData × UInt8))
    (h : ∀ p ∈ samplePayloads soldiers, p.bytes.length + 1 < 2 ^ 32) :
    List.Forall₂ (Carries 1) ((sampleResources soldiers).filter (·.merges [])).reverse
      (samplePayloads soldiers) :=
  .cons (payloadResource_carries (h _ (by simp [samplePayloads])))
    (.cons (payloadResource_carries (h _ (by simp [samplePayloads]))) .nil)

/-- The update has the soldier again. -/
theorem teamMods_sample :
    Accumulates sampleDerived sampleHandlers 1 []
      (sampleResources ⟨[(sampleKit, 0)], by decide⟩)
      (samplePayloads ⟨[(sampleKit, 0)], by decide⟩) := by
  refine (teamMods_accumulate_iff rfl (sampleResources_carry _ (by decide +kernel))).mpr ?_
  have hsame : ∀ p ∈ samplePayloads ⟨[(sampleKit, 0)], by decide⟩, p.effective =
      ⟨fun slot => if slot = .soldiers then [sampleKit] else [], fun _ => []⟩ := by
    refine List.forall_mem_cons.mpr ⟨?_, List.forall_mem_singleton.mpr ?_⟩
    · refine congrArg (TeamLists.mk · fun _ => []) (funext fun slot => ?_)
      cases slot <;> rfl
    · refine congrArg (TeamLists.mk · fun _ => []) (funext fun slot => ?_)
      cases slot <;> rfl
  intro before p after hsplit _ _ q hq entry hentry
  refine ⟨p, List.mem_cons_self, ?_⟩
  rw [hsame p (hsplit ▸ List.mem_append_right before List.mem_cons_self)]
  rwa [hsame q (hsplit ▸ List.mem_append_left _ hq)] at hentry

/-- It does not have it again, and the soldier is lost. -/
theorem soldier_lost :
    ¬ Accumulates sampleDerived sampleHandlers 1 []
      (sampleResources ⟨[], by decide⟩) (samplePayloads ⟨[], by decide⟩) := by
  have hcarry := sampleResources_carry ⟨[], by decide⟩ (by decide +kernel)
  have hhandler : sampleHandlers 1 = some (wsTeamDataHandler sampleDerived) := rfl
  obtain ⟨handlerData, hrun, hloaded⟩ := runHandler_teamData hhandler hcarry
  rintro ⟨handlerData', hrun', hall, -⟩
  cases hrun.symm.trans hrun'
  have hmem : sampleKit ∈ ([] : List TeamKitMergeData) :=
    (hloaded (.kit .soldiers sampleKit)).mp (hall _ List.mem_cons_self _ (List.mem_singleton.mpr rfl))
  exact absurd hmem List.not_mem_nil

end Kyber.ModLoader
