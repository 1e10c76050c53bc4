import Kyber.Lib.Runs
import Kyber.Proofs.ManifestChanges

/-!
# The chunk meta of a bundle

The chunks of a manifest and the items of its meta are two lists with nothing between them
but the h32 of a chunk, which only the caller of `AddChunkEntry` knows. A chunk that is new
brings an item of its own. For a chunk that was there the first item of its h32 is replaced.
If there is none, because the chunk came without an h32 or with another one, the list is left
as it is: the source only notes it in the audit log.

`InStep` is what a call does to the list. It holds of every call in every sequence, for the
items stay ones that an h32 can be read from.
-/

namespace Kyber.ModLoader.BundleManifest

open Kyber.Lib

/-! ## Items -/

/-- The items of the meta. -/
def metaItems (m : BundleManifest) : List DbObject :=
  match m.chunkMeta with
  | some (.list items) => items
  | _ => []

/-- The chunk that an item is about. -/
def h32Of : DbObject → Option UInt32
  | .map entries =>
      match entries.lookup h32Key with
      | some (.int value) => some value
      | _ => none
  | _ => none

theorem h32Of_chunkMetaItem (h32 firstMip : Int32) :
    h32Of (chunkMetaItem h32 firstMip) = some h32.toUInt32 := rfl

/-- Some item is about the chunk. -/
def Listed (h32 : Int32) (items : List DbObject) : Prop :=
  ∃ item ∈ items, h32Of item = some h32.toUInt32

/-- The items about other chunks. -/
def others (h32 : Int32) (items : List DbObject) : List DbObject :=
  items.filter fun item => h32Of item ≠ some h32.toUInt32

/-- The place of the item that is replaced. -/
def metaPlace (h32 : Int32) (items : List DbObject) : Option Nat :=
  items.findIdx? fun item => h32Of item = some h32.toUInt32

theorem getMetaIndex_eq {h32 : Int32} {items : List DbObject}
    (h : ∀ item ∈ items, HasH32 item) (i : Nat) :
    getMetaIndex h32 items i = .ok ((metaPlace h32 items).map (· + i)) := by
  induction items generalizing i with
  | nil => rfl
  | cons item items ih =>
      obtain ⟨entries, value, rfl, hlookup⟩ := h item List.mem_cons_self
      have hvalue : h32Of (.map entries) = some value := by rw [h32Of, hlookup]
      rw [getMetaIndex, hlookup, metaPlace, List.findIdx?_cons, hvalue]
      dsimp only
      by_cases heq : value = h32.toUInt32
      · subst heq
        simp
      · rw [if_pos heq, if_neg (by simpa using heq),
          ih (fun item hitem => h item (List.mem_cons_of_mem _ hitem)), metaPlace, Option.map_map]
        congr 2
        funext k
        exact Nat.add_right_comm k i 1 ▸ rfl

theorem metaPlace_none_iff {h32 : Int32} {items : List DbObject} :
    metaPlace h32 items = none ↔ ¬ Listed h32 items := by
  simp [metaPlace, Listed]

/-- Another item for the same chunk. -/
theorem others_set {h32 : Int32} {items : List DbObject} {i : Nat}
    (hi : metaPlace h32 items = some i) {item : DbObject}
    (hitem : h32Of item = some h32.toUInt32) :
    others h32 (items.set i item) = others h32 items ∧ item ∈ items.set i item := by
  obtain ⟨hlt, hfound, -⟩ := List.findIdx?_eq_some_iff_getElem.mp hi
  refine ⟨?_, List.mem_set hlt item⟩
  have hold : h32Of items[i] = some h32.toUInt32 := by simpa using hfound
  rw [others, others, List.set_eq_take_append_cons_drop, if_pos hlt]
  conv_rhs => rw [← List.take_append_drop i items, List.drop_eq_getElem_cons hlt]
  rw [List.filter_append, List.filter_append, List.filter_cons_of_neg (by simp [hitem]),
    List.filter_cons_of_neg (by simp [hold])]

theorem metaItems_eq {m : BundleManifest} {items : List DbObject}
    (h : m.chunkMeta.getD (.list []) = .list items) : m.metaItems = items := by
  unfold metaItems
  cases hmeta : m.chunkMeta with
  | none =>
      rw [hmeta] at h
      cases h
      rfl
  | some tree =>
      rw [hmeta] at h
      cases h
      rfl

/-- The items afterwards. -/
def itemsAfter (isNew : Bool) (h32 firstMip : Int32) (items : List DbObject) : List DbObject :=
  if isNew then items ++ [chunkMetaItem h32 firstMip]
  else match metaPlace h32 items with
    | some i => items.set i (chunkMetaItem h32 firstMip)
    | none => items

theorem setChunkMeta_items {m m' : BundleManifest} (h : m.MetaReadable) {isNew : Bool}
    {h32 firstMip : Int32} (hne : h32 ≠ 0) (hset : m.setChunkMeta isNew h32 firstMip = .ok m') :
    m'.metaItems = itemsAfter isNew h32 firstMip m.metaItems := by
  obtain ⟨items, hitems, hall⟩ := h
  rw [metaItems_eq hitems]
  unfold setChunkMeta at hset
  rw [if_neg hne, hitems] at hset
  cases isNew with
  | true =>
      cases hset
      rfl
  | false =>
      rw [itemsAfter, if_neg Bool.false_ne_true]
      simp only [metaList, getMetaIndex_eq hall, bind, Except.bind, Bool.false_eq_true,
        if_false] at hset
      cases hplace : metaPlace h32 items with
      | none =>
          rw [hplace] at hset
          cases hset
          rfl
      | some i =>
          rw [hplace] at hset
          cases hset
          rfl

/-! ## One call -/

/-- What a call of `AddChunkEntry` is given. -/
structure ChunkCall where
  entry : ChunkEntry
  h32 : Int32
  firstMip : Int32
  allowNew : Bool := true
  allowModify : Bool := true

def call (m : BundleManifest) (c : ChunkCall) : Except Fault (Result × BundleManifest) :=
  m.addChunkEntry c.entry c.h32 c.firstMip c.allowNew c.allowModify

/-- What a call does to the items. -/
structure InStep (m : BundleManifest) (c : ChunkCall) (result : Result) (m' : BundleManifest) :
    Prop where
  /-- A chunk that is new, or whose h32 is listed, has its item afterwards. -/
  listed : c.h32 ≠ 0 → result = .added ∨ result = .modified ∧ Listed c.h32 m.metaItems →
    chunkMetaItem c.h32 c.firstMip ∈ m'.metaItems
  /-- The list does not change for a chunk that was there without one ... -/
  unlisted : result = .modified → ¬ Listed c.h32 m.metaItems → m'.metaItems = m.metaItems
  /-- ... nor if there is no h32, or nothing is done. -/
  silent : c.h32 = 0 ∨ result = .nop → m'.metaItems = m.metaItems
  others : others c.h32 m'.metaItems = others c.h32 m.metaItems

/-- A call either leaves the meta alone, or goes on to it with other chunks. -/
theorem call_cases {m m' : BundleManifest} {c : ChunkCall} {result : Result}
    (h : m.call c = .ok (result, m')) :
    result = .nop ∧ m' = m ∨ ∃ m₁ : BundleManifest, m₁.chunkMeta = m.chunkMeta ∧
      (result = .modified ∧ m₁.setChunkMeta false c.h32 c.firstMip = .ok m' ∨
        result = .added ∧ m₁.setChunkMeta true c.h32 c.firstMip = .ok m') := by
  unfold call addChunkEntry at h
  split at h
  next =>
    obtain ⟨m₁, hset, h⟩ := bind_eq_ok h
    cases h
    exact .inr ⟨_, by rfl, .inl ⟨rfl, hset⟩⟩
  next =>
    split at h
    next =>
      cases h
      exact .inl ⟨rfl, rfl⟩
    next =>
      obtain ⟨m₁, hset, h⟩ := bind_eq_ok h
      cases h
      exact .inr ⟨_, by rfl, .inr ⟨rfl, hset⟩⟩

theorem metaItems_congr {m m' : BundleManifest} (h : m'.chunkMeta = m.chunkMeta) :
    m'.metaItems = m.metaItems := by
  rw [metaItems, metaItems, h]

theorem inStep_of_silent {m m' : BundleManifest} {c : ChunkCall} {result : Result}
    (hitems : m'.metaItems = m.metaItems) (hsilent : c.h32 = 0 ∨ result = .nop) :
    InStep m c result m' where
  listed hne hresult := by
    rcases hsilent with h | rfl
    · exact absurd h hne
    · rcases hresult with h | ⟨h, -⟩ <;> cases h
  unlisted _ _ := hitems
  silent _ := hitems
  others := by rw [hitems]

theorem inStep_of_added {m m' : BundleManifest} {c : ChunkCall} (hne : c.h32 ≠ 0)
    (hitems : m'.metaItems = itemsAfter true c.h32 c.firstMip m.metaItems) :
    InStep m c .added m' := by
  rw [itemsAfter, if_pos rfl] at hitems
  constructor
  case listed =>
    intro _ _
    rw [hitems]
    exact List.mem_append_right _ (List.mem_singleton.mpr rfl)
  case unlisted => exact fun h => by cases h
  case silent =>
    rintro (h | h)
    · exact absurd h hne
    · cases h
  case others =>
    rw [hitems, BundleManifest.others, List.filter_append]
    simp [BundleManifest.others, h32Of_chunkMetaItem]

theorem inStep_of_modified {m m' : BundleManifest} {c : ChunkCall} (hne : c.h32 ≠ 0)
    (hitems : m'.metaItems = itemsAfter false c.h32 c.firstMip m.metaItems) :
    InStep m c .modified m' := by
  rw [itemsAfter, if_neg Bool.false_ne_true] at hitems
  cases hplace : metaPlace c.h32 m.metaItems with
  | none =>
      have hunlisted := metaPlace_none_iff.mp hplace
      rw [hplace] at hitems
      constructor
      case listed => exact fun _ h => absurd (h.resolve_left (by simp)).2 hunlisted
      case unlisted => exact fun _ _ => hitems
      case silent => exact fun _ => hitems
      case others => rw [hitems]
  | some i =>
      obtain ⟨hothers, hmem⟩ := others_set hplace (h32Of_chunkMetaItem c.h32 c.firstMip)
      rw [hplace] at hitems
      constructor
      case listed =>
        intro _ _
        rw [hitems]
        exact hmem
      case unlisted =>
        intro _ hno
        rw [metaPlace_none_iff.mpr hno] at hplace
        cases hplace
      case silent =>
        rintro (h | h)
        · exact absurd h hne
        · cases h
      case others => rw [hitems, hothers]

theorem call_inStep {m m' : BundleManifest} (h : m.MetaReadable) {c : ChunkCall} {result : Result}
    (hcall : m.call c = .ok (result, m')) : InStep m c result m' := by
  obtain ⟨rfl, rfl⟩ | ⟨m₁, hmeta, hset⟩ := call_cases hcall
  · exact inStep_of_silent rfl (.inr rfl)
  · have hitems := metaItems_congr hmeta
    have hreadable := h.congr hmeta
    by_cases hzero : c.h32 = 0
    · refine inStep_of_silent ?_ (.inl hzero)
      rw [← hitems]
      rcases hset with ⟨-, hset⟩ | ⟨-, hset⟩
      · rw [setChunkMeta, if_pos hzero] at hset
        cases hset
        rfl
      · rw [setChunkMeta, if_pos hzero] at hset
        cases hset
        rfl
    · rcases hset with ⟨rfl, hset⟩ | ⟨rfl, hset⟩
      · exact inStep_of_modified hzero (by rw [← hitems]; exact setChunkMeta_items hreadable hzero hset)
      · exact inStep_of_added hzero (by rw [← hitems]; exact setChunkMeta_items hreadable hzero hset)

/-! ## Sequences of calls -/

/-- A manifest as the calls change it. -/
def step (m : BundleManifest) (c : ChunkCall) : Option BundleManifest :=
  (m.call c).toOption.map Prod.snd

theorem step_readable {m : BundleManifest} (h : m.MetaReadable) (c : ChunkCall) :
    ∃ result m', m.call c = .ok (result, m') ∧ step m c = some m' ∧ m'.MetaReadable := by
  obtain ⟨result, m', hcall, hreadable⟩ :=
    addChunkEntry_total h c.entry c.h32 c.firstMip c.allowNew c.allowModify
  have hcall : m.call c = .ok (result, m') := hcall
  exact ⟨result, m', hcall, by rw [step, hcall]; rfl, hreadable⟩

/-- Every sequence of calls goes through, and every call keeps the meta in step with the chunk
it adds, or modifies if the meta lists its h32. -/
theorem chunkMeta_run (m : BundleManifest) (h : m.MetaReadable) (calls : List ChunkCall) :
    (∃ m', exec step m calls = some m') ∧
      ∀ move ∈ moves step m calls, ∃ result m', move.1.call move.2 = .ok (result, m') ∧
        InStep move.1 move.2 result m' := by
  induction calls generalizing m with
  | nil => exact ⟨⟨m, rfl⟩, fun move hmove => by cases hmove⟩
  | cons c calls ih =>
      obtain ⟨result, m₁, hcall, hstep, hreadable⟩ := step_readable h c
      obtain ⟨hexec, hmoves⟩ := ih m₁ hreadable
      rw [exec, moves, hstep]
      exact ⟨hexec, List.forall_mem_cons.mpr ⟨⟨result, m₁, hcall, call_inStep h hcall⟩, hmoves⟩⟩

/-! ## A chunk without meta -/

/-- The chunk of the guid zero. -/
def zeroChunk : ChunkEntry := { guid := Vector.replicate 16 0, logicalOffset := 0, logicalSize := 0 }

def zeroCall : ChunkCall := { entry := zeroChunk, h32 := 5, firstMip := 2 }

/-- A chunk that is added twice gets its item, which is replaced. -/
theorem chunkMeta_run_twice :
    MetaReadable {} ∧ (∃ m', exec step {} [zeroCall, zeroCall] = some m') ∧
      ∀ move ∈ moves step {} [zeroCall, zeroCall], ∃ result m',
        move.1.call move.2 = .ok (result, m') ∧ InStep move.1 move.2 result m' :=
  have h : MetaReadable {} := ⟨[], rfl, fun item hitem => by cases hitem⟩
  ⟨h, chunkMeta_run {} h [zeroCall, zeroCall]⟩

/-- A chunk that has no item is modified with an h32, and there is still none. -/
theorem modified_without_meta :
    MetaReadable { chunkEntries := [zeroChunk] } ∧ zeroCall.h32 ≠ 0 ∧
      ∃ m', call { chunkEntries := [zeroChunk] } zeroCall = .ok (.modified, m') ∧
        ¬ Listed zeroCall.h32 m'.metaItems := by
  refine ⟨⟨[], rfl, fun item hitem => by cases hitem⟩, by decide, _, rfl, ?_⟩
  rintro ⟨item, hitem, -⟩
  cases hitem

end Kyber.ModLoader.BundleManifest
