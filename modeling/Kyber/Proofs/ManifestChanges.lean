import Kyber.Lib.Sections
import Kyber.Proofs.LayoutChanges

/-!
# What a change of a bundle's manifest can do

The three kinds of entries are kept in vectors of their own, and each kind has its own
way of being found: an ebx by its name, a chunk by its guid, a res by its name when it
is modified and by its rid when it is added. `Entry` puts them on one footing, and
`BundleManifest.entries` is the manifest in sections, which every operation changes at
one place: the first entry that is found, or the end of a section.

A change of a chunk also goes through the meta of the bundle, which is a tree from the
game's files. Only there can a merge come to a halt.
-/

namespace Kyber.ModLoader

open Kyber.Lib

/-! ## Entries -/

inductive Entry
  | ebx (entry : EbxEntry)
  | res (entry : ResEntry)
  | chunk (entry : ChunkEntry)
  deriving DecidableEq

/-- What an entry is looked up by. -/
inductive EntryKey
  | ebx (name : ByteString)
  | res (name : ByteString) (rid : UInt64)
  | chunk (guid : Guid)
  deriving DecidableEq

def Entry.key : Entry → EntryKey
  | .ebx entry => .ebx entry.name
  | .res entry => .res entry.name entry.resRid
  | .chunk entry => .chunk entry.guid

/-- The order of the sections, in the manifest and in the files of the bundle. -/
def AssetType.order : List AssetType := [.ebx, .res, .chunk]

theorem AssetType.nodup_order : AssetType.order.Nodup := by decide

theorem AssetType.mem_order (type : AssetType) : type ∈ AssetType.order := by
  cases type <;> decide

def BundleManifest.entries (m : BundleManifest) : AssetType → List Entry
  | .ebx => m.ebxEntries.map .ebx
  | .res => m.resEntries.map .res
  | .chunk => m.chunkEntries.map .chunk

namespace ModResource

/-- The entry that the resource's data has. -/
def entry (r : ModResource) : AssetType → Entry
  | .ebx => .ebx { name := r.name, originalSize := r.originalSize }
  | .res => .res r.resEntry
  | .chunk => .chunk r.chunkEntry

/-- The entries that the resource modifies. -/
def names (r : ModResource) : EntryKey → Bool
  | .ebx name => name == r.name
  | .res name _ => name == r.name
  | .chunk guid => guid == Guid.fromString r.name

/-- The entries that the resource is taken for when it is added. -/
def finds (r : ModResource) : EntryKey → Bool
  | .ebx name => name == r.name
  | .res _ rid => rid == r.data.resRid
  | .chunk guid => guid == Guid.fromString r.name

end ModResource

/-- The entry of an asset that the mods do not change. -/
def unchangedEntry (loader : Loader) (r : ModResource) : AssetType → Option Entry
  | .ebx => (loader.vanilla.getVanillaEbxEntry (loader.sourceName r)).map fun original =>
      .ebx { name := r.name, originalSize := original.entry.originalSize }
  | .res => (loader.vanilla.getVanillaResEntry r.name).map fun original => .res original.entry
  | .chunk => (loader.vanilla.getVanillaChunkEntry r.name).map fun original =>
      .chunk
        { guid := Guid.fromString r.name
          logicalOffset := original.entry.logicalOffset
          logicalSize := original.entry.logicalSize }

/-! ## The first that is found -/

section ModifyFirst

variable {α β : Type}

theorem modifyFirst_map {f : α → β} {p : α → Bool} {q : β → Bool} {g : α → α} {g' : β → β}
    (hp : ∀ a, q (f a) = p a) (hg : ∀ a, p a = true → f (g a) = g' (f a)) (l : List α) :
    (modifyFirst p g l).map f = modifyFirst q g' (l.map f) := by
  induction l with
  | nil => rfl
  | cons a l ih =>
      rw [List.map_cons, modifyFirst, modifyFirst, hp]
      by_cases h : p a = true
      · rw [if_pos h, if_pos h, List.map_cons, hg a h]
      · rw [if_neg h, if_neg h, List.map_cons, ih]

theorem modifyFirst_eq_set {p : α → Bool} {l : List α} {i : Nat} {a : α} (b : α)
    (ha : l[i]? = some a) (hp : p a = true)
    (hbefore : ∀ j < i, ∀ x, l[j]? = some x → p x = false) :
    modifyFirst p (fun _ => b) l = l.set i b := by
  induction l generalizing i with
  | nil => cases ha
  | cons x l ih =>
      cases i with
      | zero =>
          cases ha
          rw [modifyFirst, if_pos hp, List.set_cons_zero]
      | succ i =>
          have hx := hbefore 0 (Nat.succ_pos i) x rfl
          rw [modifyFirst, if_neg (by simp [hx]), List.set_cons_succ]
          rw [ih ha fun j hj y hy => hbefore (j + 1) (Nat.succ_lt_succ hj) y hy]

theorem modifyFirst_eq_self {p : α → Bool} {f : α → α} {l : List α}
    (h : ∀ a ∈ l, p a = false) : modifyFirst p f l = l := by
  induction l with
  | nil => rfl
  | cons a l ih =>
      rw [modifyFirst, if_neg (by simp [h a List.mem_cons_self]),
        ih fun x hx => h x (List.mem_cons_of_mem a hx)]

end ModifyFirst

/-! ## The operations -/

namespace BundleManifest

variable {m m' : BundleManifest} {r : ModResource} {type : AssetType}

theorem setChunkMeta_entries {isNew : Bool} {h32 firstMip : Int32}
    (h : m.setChunkMeta isNew h32 firstMip = .ok m') : m'.entries = m.entries := by
  unfold setChunkMeta at h
  split at h
  next =>
    cases h
    rfl
  next =>
    obtain ⟨list, -, h⟩ := bind_eq_ok h
    split at h
    next =>
      cases h
      rfl
    next =>
      obtain ⟨index, -, h⟩ := bind_eq_ok h
      cases index <;> cases h <;> rfl

theorem entries_ebx (l : List EbxEntry) :
    entries { m with ebxEntries := l } = Function.update m.entries .ebx (l.map .ebx) := by
  funext t
  cases t <;> simp [entries, Function.update]

theorem entries_res (l : List ResEntry) :
    entries { m with resEntries := l } = Function.update m.entries .res (l.map .res) := by
  funext t
  cases t <;> simp [entries, Function.update]

theorem entries_chunk (l : List ChunkEntry) :
    entries { m with chunkEntries := l } = Function.update m.entries .chunk (l.map .chunk) := by
  funext t
  cases t <;> simp [entries, Function.update]

/-- Replacing the chunk that is found, or adding one. -/
theorem addChunkEntry_entries {entry : ChunkEntry} {h32 firstMip : Int32}
    {allowNew allowModify : Bool} {result : Result}
    (h : m.addChunkEntry entry h32 firstMip allowNew allowModify = .ok (result, m')) :
    m'.entries = Function.update m.entries .chunk
      (if (allowModify && m.chunkEntries.any (·.guid == entry.guid)) = true then
        (modifyFirst (·.guid == entry.guid) (fun _ => entry) m.chunkEntries).map .chunk
      else if allowNew then m.entries .chunk ++ [.chunk entry] else m.entries .chunk) := by
  unfold addChunkEntry at h
  split at h
  next hany =>
    obtain ⟨m₁, hmeta, h⟩ := bind_eq_ok h
    cases h
    rw [setChunkMeta_entries hmeta, if_pos hany, entries_chunk]
  next hany =>
    rw [if_neg hany]
    split at h
    next hnew =>
      cases h
      rw [if_neg (by simpa using hnew), Function.update_eq_self]
    next hnew =>
      obtain ⟨m₁, hmeta, h⟩ := bind_eq_ok h
      cases h
      rw [setChunkMeta_entries hmeta, if_pos (by simpa using hnew), entries_chunk]
      simp [entries]

theorem modifyWith_entries (h : m.modifyWith r type = .ok m') :
    m'.entries = Function.update m.entries type
      (modifyFirst (fun e => r.names e.key) (fun _ => r.entry type) (m.entries type)) := by
  cases type with
  | ebx =>
      cases h
      rw [modifyEbxEntry, entries_ebx]
      congr 1
      refine modifyFirst_map (fun _ => by rfl) (fun e he => ?_) _
      show Entry.ebx _ = Entry.ebx _
      rw [beq_iff_eq.mp he]
  | res =>
      cases h
      rw [modifyResEntry, entries_res]
      congr 1
      exact modifyFirst_map (fun _ => by rfl) (fun _ _ => by rfl) _
  | chunk =>
      obtain ⟨⟨result, m₁⟩, hadd, h⟩ := bind_eq_ok h
      cases h
      rw [addChunkEntry_entries hadd]
      congr 1
      have hmap : (modifyFirst (·.guid == r.chunkEntry.guid) (fun _ => r.chunkEntry)
          m.chunkEntries).map Entry.chunk
          = modifyFirst (fun e => r.names e.key) (fun _ => r.entry .chunk) (m.entries .chunk) :=
        modifyFirst_map (fun _ => by rfl) (fun _ _ => by rfl) _
      by_cases hany : (m.chunkEntries.any (·.guid == r.chunkEntry.guid)) = true
      · rw [Bool.true_and, if_pos hany, hmap]
      · rw [Bool.true_and, if_neg hany, ← hmap, modifyFirst_eq_self]
        · rfl
        · intro e he
          simpa using fun heq => hany (List.any_eq_true.mpr ⟨e, he, by simpa using heq⟩)

theorem addWith_entries (h : m.addWith r type = .ok m') :
    m'.entries = Function.update m.entries type
      (if (m.entries type).any (fun e => r.finds e.key) then
        modifyFirst (fun e => r.finds e.key) (fun _ => r.entry type) (m.entries type)
      else m.entries type ++ [r.entry type]) := by
  cases type with
  | ebx =>
      cases h
      have hany : (m.entries .ebx).any (fun e => r.finds e.key)
          = m.ebxEntries.any (·.name == r.name) := by
        simp only [entries, List.any_map]
        rfl
      rw [hany, addEbxEntry, Bool.true_and]
      split
      next =>
        rw [modifyEbxEntry, entries_ebx]
        congr 1
        refine modifyFirst_map (fun _ => by rfl) (fun e he => ?_) _
        show Entry.ebx _ = Entry.ebx _
        rw [beq_iff_eq.mp he]
      next =>
        rw [entries_ebx, List.map_append]
        rfl
  | res =>
      cases h
      have hany : (m.entries .res).any (fun e => r.finds e.key)
          = m.resEntries.any (·.resRid == r.resEntry.resRid) := by
        simp only [entries, List.any_map]
        rfl
      rw [hany, addResEntry, Bool.true_and]
      split
      next =>
        rw [entries_res]
        congr 1
        exact modifyFirst_map (fun _ => by rfl) (fun _ _ => by rfl) _
      next =>
        rw [entries_res, List.map_append]
        rfl
  | chunk =>
      obtain ⟨⟨result, m₁⟩, hadd, h⟩ := bind_eq_ok h
      cases h
      have hany : (m.entries .chunk).any (fun e => r.finds e.key)
          = m.chunkEntries.any (·.guid == r.chunkEntry.guid) := by
        simp only [entries, List.any_map]
        rfl
      rw [addChunkEntry_entries hadd, hany, Bool.true_and]
      congr 1
      split
      next => exact modifyFirst_map (fun _ => by rfl) (fun _ _ => by rfl) _
      next => rfl

/-- An unchanged asset is added to the manifest when its file is added to the layout. -/
theorem addUnchanged_entries {loader : Loader} {file : Option FileInfo}
    (hfile : LayoutManifest.unchangedFile loader r type = .ok file)
    (h : m.addUnchanged loader r type = .ok m') :
    (file = none ∧ m'.entries = m.entries) ∨
      ∃ f e, file = some f ∧ unchangedEntry loader r type = some e ∧
        m'.entries = Function.update m.entries type (m.entries type ++ [e]) := by
  cases type with
  | ebx =>
      simp only [LayoutManifest.unchangedFile] at hfile
      simp only [addUnchanged] at h
      split at hfile
      next => cases hfile
      next original hget =>
        rw [hget] at h
        cases hfile
        cases h
        refine .inr ⟨_, _, rfl, by rw [unchangedEntry, hget]; rfl, ?_⟩
        rw [addEbxEntry, Bool.false_and, if_neg Bool.false_ne_true, entries_ebx, List.map_append]
        rfl
  | res =>
      simp only [LayoutManifest.unchangedFile] at hfile
      simp only [addUnchanged] at h
      split at hfile
      next => cases hfile
      next original hget =>
        rw [hget] at h
        cases hfile
        cases h
        refine .inr ⟨_, _, rfl, by rw [unchangedEntry, hget]; rfl, ?_⟩
        rw [addResEntry, Bool.false_and, if_neg Bool.false_ne_true, entries_res, List.map_append]
        rfl
  | chunk =>
      simp only [LayoutManifest.unchangedFile] at hfile
      simp only [addUnchanged] at h
      cases hget : loader.vanilla.getVanillaChunkEntry r.name with
      | none =>
          rw [hget] at hfile h
          cases hfile
          cases h
          exact .inl ⟨rfl, rfl⟩
      | some original =>
          rw [hget] at hfile h
          cases hfile
          obtain ⟨⟨result, m₁⟩, hadd, h⟩ := bind_eq_ok h
          cases h
          refine .inr ⟨_, _, rfl, by rw [unchangedEntry, hget]; rfl, ?_⟩
          rw [addChunkEntry_entries hadd, Bool.false_and, if_neg Bool.false_ne_true, if_pos rfl]

/-! ## The chunk meta -/

/-- An item of the meta that says which chunk it is about. -/
def HasH32 (item : DbObject) : Prop :=
  ∃ entries value, item = .map entries ∧ entries.lookup h32Key = some (.int value)

/-- The meta is a list of such items, or is missing. -/
def MetaReadable (m : BundleManifest) : Prop :=
  ∃ items, m.chunkMeta.getD (.list []) = .list items ∧ ∀ item ∈ items, HasH32 item

theorem chunkMetaItem_hasH32 (h32 firstMip : Int32) : HasH32 (chunkMetaItem h32 firstMip) :=
  ⟨_, _, rfl, rfl⟩

theorem getMetaIndex_total {h32 : Int32} {items : List DbObject} (h : ∀ item ∈ items, HasH32 item)
    (i : Nat) : ∃ index, getMetaIndex h32 items i = .ok index := by
  induction items generalizing i with
  | nil => exact ⟨none, rfl⟩
  | cons item items ih =>
      obtain ⟨entries, value, rfl, hlookup⟩ := h item List.mem_cons_self
      rw [getMetaIndex, hlookup]
      dsimp only
      split
      next => exact ih (fun item hitem => h item (List.mem_cons_of_mem _ hitem)) _
      next => exact ⟨_, rfl⟩

theorem setChunkMeta_total (h : m.MetaReadable) (isNew : Bool) (h32 firstMip : Int32) :
    ∃ m', m.setChunkMeta isNew h32 firstMip = .ok m' ∧ m'.MetaReadable := by
  obtain ⟨items, hitems, hall⟩ := h
  unfold setChunkMeta
  rw [hitems]
  split
  next => exact ⟨m, rfl, items, hitems, hall⟩
  next =>
    cases isNew with
    | true =>
        refine ⟨_, rfl, items ++ [chunkMetaItem h32 firstMip], rfl, ?_⟩
        intro item hitem
        rcases List.mem_append.mp hitem with hold | hnew
        · exact hall item hold
        · rw [List.mem_singleton.mp hnew]
          exact chunkMetaItem_hasH32 h32 firstMip
    | false =>
        obtain ⟨index, hindex⟩ := @getMetaIndex_total h32 items hall 0
        cases index with
        | none =>
            refine ⟨{ m with chunkMeta := some (.list items) }, ?_, items, rfl, hall⟩
            simp only [metaList, hindex, bind, Except.bind, Bool.false_eq_true, if_false]
            rfl
        | some i =>
            refine ⟨{ m with chunkMeta := some (.list (items.set i (chunkMetaItem h32 firstMip))) },
              ?_, _, rfl, ?_⟩
            · simp only [metaList, hindex, bind, Except.bind, Bool.false_eq_true, if_false]
              rfl
            · intro item hitem
              rcases List.mem_or_eq_of_mem_set hitem with hold | rfl
              · exact hall item hold
              · exact chunkMetaItem_hasH32 h32 firstMip

theorem addChunkEntry_total (h : m.MetaReadable) (entry : ChunkEntry) (h32 firstMip : Int32)
    (allowNew allowModify : Bool) :
    ∃ result m', m.addChunkEntry entry h32 firstMip allowNew allowModify = .ok (result, m') ∧
      m'.MetaReadable := by
  unfold addChunkEntry
  split
  next =>
    obtain ⟨m', hset, hmeta⟩ := setChunkMeta_total
      (m := { m with
        chunkEntries := modifyFirst (·.guid == entry.guid) (fun _ => entry) m.chunkEntries })
      h false h32 firstMip
    exact ⟨.modified, m', by dsimp only; rw [hset]; rfl, hmeta⟩
  next =>
    split
    next => exact ⟨.nop, m, rfl, h⟩
    next =>
      obtain ⟨m', hset, hmeta⟩ := setChunkMeta_total
        (m := { m with chunkEntries := m.chunkEntries ++ [entry] }) h true h32 firstMip
      exact ⟨.added, m', by dsimp only; rw [hset]; rfl, hmeta⟩

theorem modifyWith_total (h : m.MetaReadable) (r : ModResource) (type : AssetType) :
    ∃ m', m.modifyWith r type = .ok m' ∧ m'.MetaReadable := by
  cases type with
  | ebx => exact ⟨_, rfl, h⟩
  | res => exact ⟨_, rfl, h⟩
  | chunk =>
      obtain ⟨result, m', hadd, hmeta⟩ :=
        addChunkEntry_total h r.chunkEntry r.data.h32 r.data.firstMip false true
      exact ⟨m', by rw [modifyWith, hadd]; rfl, hmeta⟩

theorem addEbxEntry_meta (name : ByteString) (originalSize : UInt32) (allowModify : Bool) :
    (m.addEbxEntry name originalSize allowModify).2.chunkMeta = m.chunkMeta := by
  unfold addEbxEntry
  split <;> rfl

theorem addResEntry_meta (entry : ResEntry) (allowModify : Bool) :
    (m.addResEntry entry allowModify).2.chunkMeta = m.chunkMeta := by
  unfold addResEntry
  split <;> rfl

theorem MetaReadable.congr (h : m.MetaReadable) (hmeta : m'.chunkMeta = m.chunkMeta) :
    m'.MetaReadable := by
  unfold MetaReadable
  rw [hmeta]
  exact h

theorem addEntry_total (h : m.MetaReadable) (loader : Loader) (r : ModResource) :
    ∃ m', addEntry loader r m = .ok m' ∧ m'.MetaReadable := by
  unfold addEntry
  split
  next => exact ⟨m, rfl, h⟩
  next type htype =>
    split
    next =>
      cases type with
      | ebx => exact ⟨_, rfl, h.congr (addEbxEntry_meta _ _ _)⟩
      | res => exact ⟨_, rfl, h.congr (addResEntry_meta _ _)⟩
      | chunk =>
          obtain ⟨result, m', hadd, hmeta⟩ :=
            addChunkEntry_total h r.chunkEntry r.data.h32 r.data.firstMip true true
          exact ⟨m', by rw [addWith, hadd]; rfl, hmeta⟩
    next =>
      cases type with
      | ebx =>
          simp only [addUnchanged]
          split <;> exact ⟨_, rfl, h.congr (addEbxEntry_meta _ _ _)⟩
      | res =>
          simp only [addUnchanged]
          split
          next => exact ⟨m, rfl, h⟩
          next => exact ⟨_, rfl, h.congr (addResEntry_meta _ _)⟩
      | chunk =>
          simp only [addUnchanged]
          split
          next => exact ⟨m, rfl, h⟩
          next original horiginal =>
            obtain ⟨result, m', hadd, hmeta⟩ := addChunkEntry_total h
              { guid := Guid.fromString r.name
                logicalOffset := original.entry.logicalOffset
                logicalSize := original.entry.logicalSize } r.data.h32 r.data.firstMip true false
            exact ⟨m', by rw [hadd]; rfl, hmeta⟩

theorem addEntries_total (h : m.MetaReadable) (loader : Loader) (rs : List ModResource) :
    ∃ m', addEntries loader rs m = .ok m' := by
  induction rs generalizing m with
  | nil => exact ⟨m, rfl⟩
  | cons r rs ih =>
      obtain ⟨m₁, hadd, hmeta⟩ := addEntry_total h loader r
      rw [addEntries, hadd]
      exact ih hmeta

theorem modifyEntries_total (h : m.MetaReadable) (loader : Loader) (b : UInt32)
    (rs : List ModResource) (visited : Std.TreeSet UInt32) :
    ∃ m', modifyEntries loader b rs visited m = .ok m' ∧ m'.MetaReadable := by
  induction rs generalizing m visited with
  | nil => exact ⟨m, rfl, h⟩
  | cons r rs ih =>
      rw [modifyEntries]
      split
      next => exact ih h _
      next =>
        split
        next => exact ih h _
        next =>
          split
          next => exact ih h _
          next =>
            split
            next => exact ih h _
            next type htype =>
              split
              next =>
                obtain ⟨m₁, hmod, hmeta⟩ := modifyWith_total h r type
                rw [hmod]
                exact ih hmeta _
              next => exact ih h _

end BundleManifest

/-- Nothing but the meta can bring the merge of a bundle to a halt. -/
theorem mergeBundleManifest_total {m : BundleManifest} (h : m.MetaReadable) (loader : Loader)
    (name : ByteString) : ∃ merged, mergeBundleManifest loader name m = .ok merged := by
  unfold mergeBundleManifest
  dsimp only
  split
  next => exact BundleManifest.addEntries_total ⟨[], rfl, by simp⟩ _ _
  next =>
    obtain ⟨m₁, hmod, hmeta⟩ := BundleManifest.modifyEntries_total h loader
      (hashQuickLower (BundleManifest.platformPath ++ name)) loader.mods.modResources {}
    rw [hmod]
    exact BundleManifest.addEntries_total hmeta _ _

end Kyber.ModLoader
