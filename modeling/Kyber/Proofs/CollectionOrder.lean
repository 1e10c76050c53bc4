import Kyber.Proofs.JoinServer
import Kyber.Cli.ModHelper

/-!
# The order of expanded collections

When collections are expanded, the members of each should be right in front of it, and
everything else should be where it was: the order decides which mod wins. The members are
put in front of the first entry that is the same mod. This is another one if the collection
is listed twice, or is a member of one that comes before it.

This is all that can go wrong, and it does go wrong unless some collection is in itself,
directly or by way of others; the mistakes may cancel out then.
-/

namespace Kyber.Join

open Kyber.Collection Kyber.Collection.Frosty Kyber.Lib

variable (dirname : DartString → DartString) (join : DartString → DartString → DartString)
  (installed : Installed) (expandGameplayCollections : Bool)

/-- The entries of a collection, as they are found. -/
def resolved (collection : ModCollectionMetaData) : List (Option FrostyMod) :=
  collection.mods.map (localMod installed)

/-- A collection that is expanded has its members in front of it, null for a missing one. -/
def expandedEntry (o : Option FrostyMod) : List (Option FrostyMod) :=
  match o with
  | none => [none]
  | some m =>
      if m.isCollection && (expandGameplayCollections || !isGameplay m) then
        members installed.all ((getMods dirname join m).getD []) ++ [some m]
      else [some m]

/-- All entries in their places. -/
def expansion (entries : List (Option FrostyMod)) : List (Option FrostyMod) :=
  entries.flatMap (expandedEntry dirname join installed expandGameplayCollections)

/-- The members that are put in front of an entry. -/
def membersInFront (o : Option FrostyMod) : List (Option FrostyMod) :=
  (expandedEntry dirname join installed expandGameplayCollections o).dropLast

/-- A collection that has members is not among the entries before it, nor among the members of
these. -/
def ExpandedOnce (entries : List (Option FrostyMod)) : Prop :=
  ∀ before o after, entries = before ++ o :: after →
    membersInFront dirname join installed expandGameplayCollections o ≠ [] →
      o ∉ expansion dirname join installed expandGameplayCollections before

/-- No collection is in itself, directly or by way of others: its members are of a lower
rank. -/
def NotInItself (entries : List (Option FrostyMod)) : Prop :=
  ∃ rank : Option FrostyMod → Nat, ∀ o ∈ entries,
    ∀ x ∈ membersInFront dirname join installed expandGameplayCollections o, rank x < rank o

section

variable {dirname join installed expandGameplayCollections}

theorem expandedEntry_eq (o : Option FrostyMod) :
    expandedEntry dirname join installed expandGameplayCollections o =
      inserted dirname join installed expandGameplayCollections o ++ [o] := by
  cases o with
  | none => rfl
  | some m =>
      unfold expandedEntry inserted isExpanded membersOf
      dsimp only
      split
      · simp
      · rfl

theorem membersInFront_eq (o : Option FrostyMod) :
    membersInFront dirname join installed expandGameplayCollections o =
      inserted dirname join installed expandGameplayCollections o := by
  rw [membersInFront, expandedEntry_eq, List.dropLast_concat]

theorem expansion_eq (entries : List (Option FrostyMod)) :
    expansion dirname join installed expandGameplayCollections entries =
      withBlocks (inserted dirname join installed expandGameplayCollections) entries :=
  List.flatMap_congr fun o _ => expandedEntry_eq o

theorem expandedOnce_iff (entries : List (Option FrostyMod)) :
    ExpandedOnce dirname join installed expandGameplayCollections entries ↔
      Fresh (inserted dirname join installed expandGameplayCollections) entries := by
  simp only [ExpandedOnce, Fresh, membersInFront_eq, expansion_eq]

theorem getLocalMods_eq (collection : ModCollectionMetaData) :
    getLocalMods dirname join installed false true expandGameplayCollections collection =
      (resolved installed collection).foldl
        (insertBefore (inserted dirname join installed expandGameplayCollections))
        (resolved installed collection) := by
  have hknown : ∀ o ∈ resolved installed collection, Known installed o :=
    known_localMods collection
  simp only [getLocalMods, if_true]
  exact foldl_expandCollection dirname join installed _ hknown hknown

end

/-- The collections are expanded in their places if each is there once, and if none is in
itself only then. -/
theorem getLocalMods_expands (collection : ModCollectionMetaData) :
    (ExpandedOnce dirname join installed expandGameplayCollections (resolved installed collection) →
      getLocalMods dirname join installed false true expandGameplayCollections collection =
        expansion dirname join installed expandGameplayCollections
          (resolved installed collection)) ∧
    (NotInItself dirname join installed expandGameplayCollections (resolved installed collection) →
      (getLocalMods dirname join installed false true expandGameplayCollections collection =
          expansion dirname join installed expandGameplayCollections
            (resolved installed collection) ↔
        ExpandedOnce dirname join installed expandGameplayCollections
          (resolved installed collection))) := by
  rw [expandedOnce_iff, expansion_eq, getLocalMods_eq]
  refine ⟨foldl_insertBefore_of_fresh, fun h => ⟨fun heq => ?_, foldl_insertBefore_of_fresh⟩⟩
  obtain ⟨rank, hrank⟩ := h
  simp only [membersInFront_eq] at hrank
  exact fresh_of_foldl_insertBefore hrank heq

def modC : FrostyMod := gameplayMod [0x43]

/-- A collection with two members. -/
def pack : FrostyMod :=
  { gameplayMod [0x50] with
    filename := [0x50, 0x2e, 0x66, 0x62, 0x63]
    isCollection := true
    mods := some [modA.filename, modB.filename] }

def withPack : Installed where
  mods := [modA, modB, modC, pack]
  hiddenMods := []
  nodup := by decide
  isCollection := by decide

def packAndMod : ModCollectionMetaData where
  localId := [0x73]
  title := []
  mods := [toCollectionMod pack, toCollectionMod modC]

/-- The members are in front of their collection, which has come once. -/
theorem getLocalMods_packAndMod :
    getLocalMods here joinPath withPack false true true packAndMod =
        [some modA, some modB, some pack, some modC] ∧
      NotInItself here joinPath withPack true (resolved withPack packAndMod) ∧
      ExpandedOnce here joinPath withPack true (resolved withPack packAndMod) := by
  have hgot : getLocalMods here joinPath withPack false true true packAndMod =
      expansion here joinPath withPack true (resolved withPack packAndMod) := by decide
  have hranked : NotInItself here joinPath withPack true (resolved withPack packAndMod) :=
    ⟨fun o => if o = some pack then 1 else 0, by decide⟩
  refine ⟨by decide, hranked, ?_⟩
  exact ((getLocalMods_expands here joinPath withPack true packAndMod).2 hranked).mp hgot

def listedTwice : ModCollectionMetaData where
  localId := [0x73]
  title := []
  mods := [toCollectionMod pack, toCollectionMod pack]

/-- The members come twice in front of the first of two equal entries. -/
theorem getLocalMods_twice :
    getLocalMods here joinPath withPack false true true listedTwice =
        [some modA, some modB, some modA, some modB, some pack, some pack] ∧
      expansion here joinPath withPack true (resolved withPack listedTwice) =
        [some modA, some modB, some pack, some modA, some modB, some pack] := by
  decide

end Kyber.Join

/-!
## The client and the launcher expand collections

The client should replace each collection by its members, as the launcher does for a
collection of the same mods. It returns no mods at all, so that it does this for mods that
have nothing in them.
-/

namespace Kyber.Cli

open Kyber.Collection Kyber.Collection.Frosty Kyber.Join

variable (dirname : DartString → DartString) (join : DartString → DartString → DartString)

/-- The members of all collections are there and can be read, as these mods. -/
structure Complete (files : ModFiles) (read : DartString → FrostyMod) (mods : List FrostyMod) :
    Prop where
  exist : ∀ m ∈ mods, m.isCollection = true → ∀ path ∈ getCollectionMods dirname join m,
    files.existsSync path = true ∧ files.readMod path = .ok (some (read path))
  filename : ∀ m ∈ mods, m.isCollection = true → ∀ path ∈ getCollectionMods dirname join m,
    (read path).filename = path

/-- Each collection is replaced by its members, and all other mods are kept. -/
def expansionOf (read : DartString → FrostyMod) (mods : List FrostyMod) : List FrostyMod :=
  mods.flatMap fun m =>
    if m.isCollection then (getCollectionMods dirname join m).map read else [m]

/-- The client expands the mods, to those whose paths the launcher gets for a collection of
them. -/
structure ExpandsAlike (files : ModFiles) (read : DartString → FrostyMod)
    (installed : Installed) (collection : ModCollectionMetaData) (mods : List FrostyMod) :
    Prop where
  expands : expandMods dirname join files mods = .ok (expansionOf dirname join read mods)
  alike : getModPaths dirname join installed false collection =
    .ok ((expansionOf dirname join read mods).map (·.filename))

section

variable {dirname join} {files : ModFiles} {read : DartString → FrostyMod} {mods : List FrostyMod}
  {installed : Installed}

theorem getCollectionMods_eq (m : FrostyMod) :
    getCollectionMods dirname join m = (getMods dirname join m).getD [] := by
  unfold getCollectionMods getMods
  split <;> rfl

/-- The launcher has the paths of the mods that the client should have. -/
theorem getModPaths_eq_expansionOf (hread : Complete dirname join files read mods)
    (hinstalled : ∀ m ∈ mods, m ∈ installed.all) {collection : ModCollectionMetaData}
    (hid : collection.localId ≠ noModsId) (hmods : collection.mods = mods.map toCollectionMod) :
    getModPaths dirname join installed false collection =
      .ok ((expansionOf dirname join read mods).map (·.filename)) := by
  rw [getModPaths_eq hid, hmods, filterMap_localMod hinstalled, expansionOf,
    List.map_flatMap]
  refine congrArg Except.ok (List.flatMap_congr fun m hm => ?_)
  cases hcollection : m.isCollection with
  | false => simp [Join.files, hcollection]
  | true =>
      rw [Join.files, hcollection, if_pos rfl, if_pos rfl, ← getCollectionMods_eq, List.map_map]
      refine (List.map_id _).symm.trans (List.map_congr_left fun path hpath => ?_)
      exact (hread.filename m hm hcollection path hpath).symm

variable (read) in
theorem expansionOf_eq_nil_iff :
    expansionOf dirname join read mods = [] ↔
      ∀ m ∈ mods, m.isCollection = true ∧ getCollectionMods dirname join m = [] := by
  rw [expansionOf, List.flatMap_eq_nil_iff]
  refine forall₂_congr fun m _ => ?_
  cases m.isCollection <;> simp

end

/-- For mods whose members can all be read, client and launcher expand collections alike exactly
if the mods are collections without members. -/
theorem expandsAlike_iff {files : ModFiles} {read : DartString → FrostyMod}
    {mods : List FrostyMod} {installed : Installed} {collection : ModCollectionMetaData}
    (hread : Complete dirname join files read mods) (hinstalled : ∀ m ∈ mods, m ∈ installed.all)
    (hid : collection.localId ≠ noModsId) (hmods : collection.mods = mods.map toCollectionMod) :
    ExpandsAlike dirname join files read installed collection mods ↔
      ∀ m ∈ mods, m.isCollection = true ∧ getCollectionMods dirname join m = [] := by
  rw [← expansionOf_eq_nil_iff read]
  constructor
  · intro h
    exact (Except.ok.inj h.expands).symm
  · intro h
    exact ⟨by rw [h]; rfl, getModPaths_eq_expansionOf hread hinstalled hid hmods⟩

/-- A collection of two mods, and a mod. -/
def packAndMod : List FrostyMod := [pack, modC]

/-- The files of the members. -/
def readMember (path : DartString) : FrostyMod := if path = modA.filename then modA else modB

def memberFiles : ModFiles where
  existsSync path := [modA.filename, modB.filename].contains path
  readMod path := .ok (some (readMember path))

theorem complete_packAndMod : Complete here joinPath memberFiles readMember packAndMod where
  exist := by decide
  filename := by decide

/-- The launcher gets three files, so client and launcher are not alike. -/
theorem packAndMod_expandsAlike :
    getModPaths here joinPath withPack false Join.packAndMod =
        .ok [modA.filename, modB.filename, modC.filename] ∧
      (ExpandsAlike here joinPath memberFiles readMember withPack Join.packAndMod packAndMod ↔
        ∀ m ∈ packAndMod, m.isCollection = true ∧ getCollectionMods here joinPath m = []) :=
  ⟨by decide, expandsAlike_iff here joinPath complete_packAndMod (by decide) (by decide) rfl⟩

/-- The client gets none. -/
theorem expandMods_packAndMod :
    Complete here joinPath memberFiles readMember packAndMod ∧
      expandMods here joinPath memberFiles packAndMod = .ok [] ∧
      expansionOf here joinPath readMember packAndMod = [modA, modB, modC] :=
  ⟨complete_packAndMod, by decide, by decide⟩

end Kyber.Cli
