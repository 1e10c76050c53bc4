import Kyber.Launcher.JoinServer
import Kyber.Lib.Documents
import Kyber.Lib.Insertions

/-!
# The mods of a server are loaded

Who joins a server with all of its mods installed should play with them: the files that the
game gets should contain the server's mods, in their order, a collection by its members.

The server's mods get into the list in two ways. If the selected collection has no gameplay
mods of its own, they are added in front of it; then it is the first mod which is written
like the server's mod that counts. Otherwise the collection has to have them itself, as one
has that is offered because its gameplay mods are those of the server. Without a selected
collection nothing is loaded.
-/

namespace Kyber.Join

open Kyber.Lib Kyber.Collection Kyber.Collection.Frosty

section

variable (dirname : DartString → DartString) (join : DartString → DartString → DartString)
  (installed : Installed)

/-! ## What is promised -/

/-- The files of a mod: a collection is replaced by its members. -/
def files (m : FrostyMod) : List DartString :=
  if m.isCollection then (getMods dirname join m).getD [] else [m.filename]

/-- The mod is the one that the server lists. -/
structure IsMod (e : ServerMod) (m : FrostyMod) : Prop where
  installed : m ∈ installed.all
  name : m.details.name = e.name
  version : m.details.version = e.version

/-- If all mods of the server are installed, joining does not throw, and the game gets their
files in the order of the server. -/
def Joins (server : Server) (selected : Option ModCollectionMetaData) : Prop :=
  hasAllRequiredMods dirname join installed server = .ok true →
    ∃ paths ms, joinServer dirname join installed server selected = .ok paths ∧
      List.Forall₂ (IsMod installed) server.mods ms ∧
      (ms.flatMap (files dirname join)).Sublist paths

/-! ## When it is kept -/

/-- The members of a collection among the mods that are not hidden, and null for those that
are missing. -/
def membersOf (mods : List FrostyMod) (m : FrostyMod) : List (Option FrostyMod) :=
  members mods ((getMods dirname join m).getD [])

/-- The first mod that is written like the server's is not a collection with a missing
member. -/
def Intact (e : ServerMod) : Prop :=
  ∀ m ∈ firstWhere installed e, m.isCollection = true →
    none ∉ membersOf dirname join installed.mods m

/-- It is the server's mod, and no member of it is a collection itself. -/
def Resolves (e : ServerMod) : Prop :=
  ∀ m ∈ firstWhere installed e, hasName e.name e.version m = true ∧
    (m.isCollection = true → ∀ x, some x ∈ membersOf dirname join installed.mods m →
      x.isCollection = false)

/-- These mods have those of the server: for each of them there is an installed mod of its name
and version, and the files of all are among the files of these mods, in the server's order. -/
def Has (l : List FrostyMod) (es : List ServerMod) : Prop :=
  ∃ ms, List.Forall₂ (IsMod installed) es ms ∧
    (ms.flatMap (files dirname join)).Sublist (l.flatMap (files dirname join))

/-- The mods that the server names are found intact, and there is nothing to load for them; or
the server is not called like the empty collection, and a collection is selected: one that has
the mods of the server, or one without gameplay mods, if the mods that are found are those of the
server. -/
def KeepsMods (server : Server) (selected : Option ModCollectionMetaData) : Prop :=
  (∀ e ∈ server.mods, Intact dirname join installed e) ∧
    (Has dirname join installed [] server.mods ∨
      server.id ≠ noModsId ∧ ∃ c, selected = some c ∧
        (Has dirname join installed (c.mods.filterMap (localMod installed)) server.mods ∨
          containsGameplayMods dirname join installed c = false ∧
            ∀ e ∈ server.mods, Resolves dirname join installed e))

/-- The mods of the server are added, and another mod is found for one of them, or a collection
with a collection in it. -/
def Misled (server : Server) (selected : Option ModCollectionMetaData) : Prop :=
  ∃ c, selected = some c ∧ containsGameplayMods dirname join installed c = false ∧
    ∃ e ∈ server.mods, ¬ Resolves dirname join installed e

/-- The collections in a collection that the dialog expands. -/
def expanded (collection : ModCollectionMetaData) : List (Option FrostyMod) :=
  (collection.mods.map (localMod installed)).filter (isExpanded false)

/-- No collection that the dialog expands is there twice or in another one, and no gameplay mod
in them is a collection. -/
structure Plain (collection : ModCollectionMetaData) : Prop where
  nodup : (expanded installed collection).Nodup
  apart : ∀ m, some m ∈ expanded installed collection →
    ∀ o ∈ membersOf dirname join installed.all m, o ∉ expanded installed collection
  gameplay : ∀ m, some m ∈ expanded installed collection →
    ∀ x, some x ∈ membersOf dirname join installed.all m → isGameplay x = true →
      x.isCollection = false

end

section

variable {dirname : DartString → DartString} {join : DartString → DartString → DartString}
  {installed : Installed} {m x : FrostyMod}

/-! ## Files -/

theorem find?_filename (hm : m ∈ installed.all) :
    installed.all.find? (hasFilename m.filename) = some m :=
  find?_key installed.nodup hm

theorem eq_of_filename (hm : m ∈ installed.all) (hx : x ∈ installed.all)
    (h : m.filename = x.filename) : m = x := by
  have hfind := find?_filename hm
  rw [h, find?_filename hx] at hfind
  exact (Option.some.inj hfind).symm

theorem mem_all_of_mem_mods (hm : m ∈ installed.mods) : m ∈ installed.all :=
  List.mem_append_left _ hm

variable (dirname join) in
/-- A collection has members. -/
theorem getMods_of_isCollection (hm : m ∈ installed.all) (h : m.isCollection = true) :
    ∃ names, getMods dirname join m = some names := by
  have hsome := installed.isCollection m hm
  rw [h] at hsome
  obtain ⟨names, hnames⟩ := Option.isSome_iff_exists.mp hsome.symm
  unfold getMods
  split
  · exact ⟨names, hnames⟩
  · exact ⟨_, by rw [hnames]; rfl⟩

theorem checkedMods_eq (hm : m ∈ installed.all) (h : m.isCollection = true) :
    checkedMods dirname join m = .ok (files dirname join m) := by
  obtain ⟨names, hnames⟩ := getMods_of_isCollection dirname join hm h
  simp [checkedMods, files, h, hnames]

/-- A mod of a collection is found under its own file name. -/
theorem localMod_toCollectionMod (hm : m ∈ installed.all) :
    localMod installed (toCollectionMod m) = some m := by
  simp only [localMod, toCollectionMod, Option.bind_some, find?_filename hm, Option.some_or]

theorem mem_all_of_localMod {mod : CollectionMod} (h : localMod installed mod = some m) :
    m ∈ installed.all := by
  unfold localMod at h
  rcases Option.or_eq_some_iff.mp h with h | ⟨-, h⟩
  · obtain ⟨filename, -, h⟩ := Option.bind_eq_some_iff.mp h
    exact List.mem_of_find?_eq_some h
  · exact List.mem_of_find?_eq_some h

variable (installed) in
theorem pathsOf_eq (ms : List FrostyMod) (hms : ∀ m ∈ ms, m ∈ installed.all) :
    pathsOf dirname join false ms = .ok (ms.flatMap (files dirname join)) := by
  induction ms with
  | nil => rfl
  | cons m ms ih =>
      have hm := hms m List.mem_cons_self
      rw [pathsOf, ih fun x hx => hms x (List.mem_cons_of_mem _ hx), List.flatMap_cons]
      cases hcollection : m.isCollection with
      | false => simp [files, hcollection, pure, Except.pure, bind, Except.bind]
      | true => simp [checkedMods_eq hm hcollection, pure, Except.pure, bind, Except.bind]

/-- The files that the game gets for a collection. -/
theorem getModPaths_eq {c : ModCollectionMetaData} (hid : c.localId ≠ noModsId) :
    getModPaths dirname join installed false c =
      .ok ((c.mods.filterMap (localMod installed)).flatMap (files dirname join)) := by
  have hmods : (getLocalMods dirname join installed false false true c).filterMap id =
      c.mods.filterMap (localMod installed) := by
    simp [getLocalMods, List.filterMap_map]
  rw [getModPaths, if_neg hid, hmods]
  refine pathsOf_eq installed _ fun m hm => ?_
  obtain ⟨mod, -, hmod⟩ := List.mem_filterMap.mp hm
  exact mem_all_of_localMod hmod

/-! ## The mods of the server are found -/

theorem isInstalledIn_cases {name version : DartString} {mods : List FrostyMod}
    (h : isInstalledIn dirname join installed name version mods = .ok true) :
    ∃ m ∈ mods, hasName name version m = true := by
  induction mods with
  | nil => cases h
  | cons m mods ih =>
      by_cases hname : hasName name version m = true
      · exact ⟨m, List.mem_cons_self, hname⟩
      · simp only [isInstalledIn, hname, if_false, Bool.false_eq_true] at h
        obtain ⟨x, hx, hxname⟩ := ih h
        exact ⟨x, List.mem_cons_of_mem _ hx, hxname⟩

/-- A mod that is installed is found under what is written for it. -/
theorem firstWhere_of_isInstalled {e : ServerMod}
    (h : isInstalled dirname join installed e.name e.version = .ok true) :
    ∃ m ∈ installed.mods, firstWhere installed e = some m := by
  obtain ⟨x, hx, hname⟩ := isInstalledIn_cases h
  simp only [hasName, Bool.and_eq_true, beq_iff_eq] at hname
  have hfound : (firstWhere installed e).isSome := by
    refine List.find?_isSome.mpr ⟨x, hx, ?_⟩
    simp [toKyberString, hname.1, hname.2]
  obtain ⟨m, hm⟩ := Option.isSome_iff_exists.mp hfound
  exact ⟨m, List.mem_of_find?_eq_some hm, hm⟩

theorem isInstalled_of_allM {mods : List ServerMod}
    (h : mods.allM (fun e => isInstalled dirname join installed e.name e.version) = .ok true) :
    ∀ e ∈ mods, isInstalled dirname join installed e.name e.version = .ok true := by
  induction mods with
  | nil => exact fun e he => by cases he
  | cons e mods ih =>
      rw [List.allM] at h
      cases hfirst : isInstalled dirname join installed e.name e.version with
      | error _ =>
          rw [hfirst] at h
          cases h
      | ok found =>
          rw [hfirst] at h
          cases found with
          | false => cases h
          | true => exact List.forall_mem_cons.mpr ⟨hfirst, ih h⟩

variable (dirname join installed) in
/-- The mods that are added for a mod of the server. -/
def loaded (m : FrostyMod) : List FrostyMod :=
  if m.isCollection then (membersOf dirname join installed.mods m).filterMap id else [m]

theorem added_eq (hm : m ∈ installed.mods)
    (hintact : m.isCollection = true → none ∉ membersOf dirname join installed.mods m) :
    added dirname join installed m =
      .ok ((loaded dirname join installed m).map toCollectionMod) := by
  cases hcollection : m.isCollection with
  | false => simp [added, loaded, hcollection, pure, Except.pure]
  | true =>
      obtain ⟨names, hnames⟩ :=
        getMods_of_isCollection dirname join (mem_all_of_mem_mods hm) hcollection
      have hfound := hintact hcollection
      simp only [membersOf, hnames, Option.getD_some] at hfound
      simp [added, loaded, membersOf, checkedMods, hcollection, hnames, hfound, bind, Except.bind,
        pure, Except.pure]

theorem mem_all_of_loaded (hm : m ∈ installed.mods) (hx : x ∈ loaded dirname join installed m) :
    x ∈ installed.all := by
  unfold loaded at hx
  split at hx
  · obtain ⟨o, ho, rfl⟩ := List.mem_filterMap.mp hx
    obtain ⟨name, -, hfind⟩ := List.mem_map.mp ho
    exact mem_all_of_mem_mods (List.mem_of_find?_eq_some hfind)
  · rw [List.mem_singleton.mp hx]
    exact mem_all_of_mem_mods hm

/-- What `joinServer` makes of the mods of the server. -/
theorem collectionMods_eq {mods : List ServerMod}
    (hinstalled : ∀ e ∈ mods, ∃ m ∈ installed.mods, firstWhere installed e = some m)
    (hintact : ∀ e ∈ mods, Intact dirname join installed e) :
    ∃ ms, List.Forall₂ (fun e m => firstWhere installed e = some m) mods ms ∧
      (∀ x ∈ ms.flatMap (loaded dirname join installed), x ∈ installed.all) ∧
      collectionMods dirname join installed mods =
        .ok ((ms.flatMap (loaded dirname join installed)).map toCollectionMod) := by
  induction mods with
  | nil => exact ⟨[], .nil, (fun x hx => by cases hx), rfl⟩
  | cons e mods ih =>
      obtain ⟨m, hm, hfirst⟩ := hinstalled e List.mem_cons_self
      obtain ⟨ms, hms, hfound, hrest⟩ := ih (fun e he => hinstalled e (List.mem_cons_of_mem _ he))
        fun e he => hintact e (List.mem_cons_of_mem _ he)
      have hadded := added_eq hm (hintact e List.mem_cons_self m hfirst)
      refine ⟨m :: ms, .cons hfirst hms, fun x hx => ?_, ?_⟩
      · rw [List.flatMap_cons, List.mem_append] at hx
        exact hx.elim (mem_all_of_loaded hm) (hfound x)
      · simp [collectionMods, hfirst, hadded, hrest, bind, Except.bind, pure, Except.pure]

/-- Mods that are found under their file names have these files, if none is a collection. -/
theorem files_members {mods : List FrostyMod} {names : List DartString}
    (hplain : ∀ x, some x ∈ members mods names → x.isCollection = false)
    (hfound : none ∉ members mods names) :
    ((members mods names).filterMap id).flatMap (files dirname join) = names := by
  induction names with
  | nil => rfl
  | cons name names ih =>
      simp only [members, List.map_cons, List.mem_cons, not_or] at hplain hfound
      cases hfind : mods.find? (hasFilename name) with
      | none => exact absurd hfind.symm hfound.1
      | some x =>
          have hname : x.filename = name := by
            simpa [hasFilename] using List.find?_some hfind
          have hfiles : files dirname join x = [name] := by
            rw [files, hplain x (.inl hfind.symm), if_neg Bool.false_ne_true, hname]
          simp only [members, List.map_cons, hfind, List.filterMap_cons, id_eq, List.flatMap_cons,
            hfiles, List.singleton_append, List.cons.injEq, true_and]
          exact ih (fun x hx => hplain x (.inr hx)) hfound.2

theorem files_loaded
    (hintact : m.isCollection = true → none ∉ membersOf dirname join installed.mods m)
    (hplain : m.isCollection = true → ∀ x, some x ∈ membersOf dirname join installed.mods m →
      x.isCollection = false) :
    (loaded dirname join installed m).flatMap (files dirname join) = files dirname join m := by
  cases hcollection : m.isCollection with
  | false => simp [loaded, hcollection]
  | true =>
      rw [loaded, hcollection, if_pos rfl, membersOf,
        files_members (hplain hcollection) (hintact hcollection), files, hcollection, if_pos rfl]

theorem filterMap_localMod {ms : List FrostyMod} (hms : ∀ m ∈ ms, m ∈ installed.all) :
    (ms.map toCollectionMod).filterMap (localMod installed) = ms := by
  induction ms with
  | nil => rfl
  | cons m ms ih =>
      rw [List.map_cons, List.filterMap_cons, localMod_toCollectionMod (hms m List.mem_cons_self),
        ih fun x hx => hms x (List.mem_cons_of_mem _ hx)]

/-- The files that the game gets when a collection is selected. -/
theorem joinServer_eq {server : Server} {c : ModCollectionMetaData} (hid : server.id ≠ noModsId)
    {cMods : List CollectionMod}
    (hmods : collectionMods dirname join installed server.mods = .ok cMods) :
    joinServer dirname join installed server (some c) =
      .ok ((((if containsGameplayMods dirname join installed c then [] else cMods) ++
        c.mods).filterMap (localMod installed)).flatMap (files dirname join)) := by
  simp only [joinServer, hmods, bind, Except.bind]
  exact getModPaths_eq hid

/-- Without a collection, or if the server is called like the empty one, there are none. -/
theorem joinServer_eq_nil {server : Server} {selected : Option ModCollectionMetaData}
    (hnone : server.id = noModsId ∨ selected = none) {cMods : List CollectionMod}
    (hmods : collectionMods dirname join installed server.mods = .ok cMods) :
    joinServer dirname join installed server selected = .ok [] := by
  simp only [joinServer, hmods, bind, Except.bind]
  by_cases hid : server.id = noModsId
  · exact if_pos hid
  · obtain rfl := hnone.resolve_left hid
    exact getModPaths_eq hid

/-- If the list of the server's mods can be made, they are found intact. -/
theorem intact_of_collectionMods {mods : List ServerMod} {cMods : List CollectionMod}
    (h : collectionMods dirname join installed mods = .ok cMods) :
    ∀ e ∈ mods, Intact dirname join installed e := by
  induction mods generalizing cMods with
  | nil => exact fun e he => by cases he
  | cons e mods ih =>
      cases hfirst : firstWhere installed e with
      | none => simp [collectionMods, hfirst, throw, throwThe, MonadExceptOf.throw] at h
      | some m =>
          obtain ⟨first, rest, hadded, hrest⟩ : ∃ first rest,
              added dirname join installed m = .ok first ∧
                collectionMods dirname join installed mods = .ok rest := by
            simp only [collectionMods, hfirst, bind, Except.bind] at h
            split at h
            · cases h
            split at h
            · cases h
            · exact ⟨_, _, ‹_›, ‹_›⟩
          refine List.forall_mem_cons.mpr ⟨fun x hx hcollection hnone => ?_, ih hrest⟩
          rw [hfirst, Option.mem_some_iff] at hx
          subst hx
          obtain ⟨names, hnames⟩ := getMods_of_isCollection dirname join
            (mem_all_of_mem_mods (List.mem_of_find?_eq_some hfirst)) hcollection
          simp only [membersOf, hnames, Option.getD_some] at hnone
          simp [added, hcollection, checkedMods, hnames, hnone, bind, Except.bind, throw, throwThe,
            MonadExceptOf.throw] at hadded

/-! ## The mods of the server are added -/

theorem flatMap_files_loaded {mods : List ServerMod} {ms : List FrostyMod}
    (hms : List.Forall₂ (fun e m => firstWhere installed e = some m) mods ms)
    (hintact : ∀ e ∈ mods, Intact dirname join installed e)
    (hresolves : ∀ e ∈ mods, Resolves dirname join installed e) :
    (ms.flatMap (loaded dirname join installed)).flatMap (files dirname join) =
      ms.flatMap (files dirname join) := by
  induction hms with
  | nil => rfl
  | cons hem hms ih =>
      rw [List.flatMap_cons, List.flatMap_append, List.flatMap_cons,
        files_loaded (hintact _ List.mem_cons_self _ hem)
          (hresolves _ List.mem_cons_self _ hem).2,
        ih (fun e he => hintact e (List.mem_cons_of_mem _ he))
          fun e he => hresolves e (List.mem_cons_of_mem _ he)]

theorem joins_added {server : Server} {c : ModCollectionMetaData} (hid : server.id ≠ noModsId)
    (hintact : ∀ e ∈ server.mods, Intact dirname join installed e)
    (hgameplay : containsGameplayMods dirname join installed c = false)
    (hresolves : ∀ e ∈ server.mods, Resolves dirname join installed e) :
    Joins dirname join installed server (some c) := by
  intro hall
  have hinstalled := isInstalled_of_allM hall
  obtain ⟨ms, hms, hfound, hmods⟩ :=
    collectionMods_eq (fun e he => firstWhere_of_isInstalled (hinstalled e he)) hintact
  refine ⟨_, ms, joinServer_eq hid hmods, ?_, ?_⟩
  · refine ((List.forall₂_and_left _ _).mpr ⟨hresolves, hms⟩).imp fun e m h => ?_
    obtain ⟨hresolve, hfirst⟩ := h
    have hname := (hresolve m hfirst).1
    simp only [hasName, Bool.and_eq_true, beq_iff_eq] at hname
    exact ⟨mem_all_of_mem_mods (List.mem_of_find?_eq_some hfirst), hname.1, hname.2⟩
  · rw [hgameplay, if_neg Bool.false_ne_true, List.filterMap_append, filterMap_localMod hfound,
      List.flatMap_append, flatMap_files_loaded hms hintact hresolves]
    exact List.sublist_append_left _ _

/-! ## The collection has the mods of the server -/

/-- A mod that is installed, or null. -/
def Known (installed : Installed) (o : Option FrostyMod) : Prop := ∀ m ∈ o, m ∈ installed.all

theorem equalsNullable_iff {o o' : Option FrostyMod} (ho : Known installed o)
    (ho' : Known installed o') : equalsNullable o o' = true ↔ o = o' := by
  cases o with
  | none => cases o' <;> simp [equalsNullable]
  | some m =>
      cases o' with
      | none => simp [equalsNullable]
      | some x =>
          simp only [equalsNullable, Option.some.injEq]
          constructor
          · intro h
            simp only [equals, Bool.and_eq_true, beq_iff_eq] at h
            exact eq_of_filename (ho m rfl) (ho' x rfl) h.1.1.1.1.2
          · rintro rfl
            simp [equals]

theorem known_members (names : List DartString) :
    ∀ o ∈ members installed.all names, Known installed o := by
  intro o ho m hm
  obtain ⟨name, -, hfind⟩ := List.mem_map.mp ho
  rw [hm] at hfind
  exact List.mem_of_find?_eq_some hfind

variable (dirname join installed) in
/-- What is put in front of a mod of a collection: its members, if it is expanded. -/
def inserted (expandGameplayCollections : Bool) (o : Option FrostyMod) :
    List (Option FrostyMod) :=
  if isExpanded expandGameplayCollections o then
    o.toList.flatMap (membersOf dirname join installed.all)
  else []

theorem known_inserted (expandGameplayCollections : Bool) (o : Option FrostyMod) :
    ∀ x ∈ inserted dirname join installed expandGameplayCollections o, Known installed x := by
  intro x hx
  unfold inserted at hx
  split at hx
  · obtain ⟨m, -, hx⟩ := List.mem_flatMap.mp hx
    exact known_members _ x hx
  · exact absurd hx List.not_mem_nil

/-- The members of a collection are put in front of the first entry that it is. -/
theorem expandCollection_eq {expandGameplayCollections : Bool} {mods : List (Option FrostyMod)}
    {o : Option FrostyMod} (hmods : ∀ x ∈ mods, Known installed x) (ho : Known installed o)
    (hexpanded : isExpanded expandGameplayCollections o = true) :
    expandCollection dirname join installed mods o =
      insertBefore (inserted dirname join installed expandGameplayCollections) mods o := by
  cases o with
  | none => cases hexpanded
  | some m =>
      have hcollection : m.isCollection = true := by
        simp only [isExpanded, Bool.and_eq_true] at hexpanded
        exact hexpanded.1
      obtain ⟨names, hnames⟩ := getMods_of_isCollection dirname join (ho m rfl) hcollection
      have hindex : ∀ x ∈ mods, equalsNullable (some m) x = true ↔ x = some m := by
        intro x hx
        rw [equalsNullable_iff ho (hmods x hx), eq_comm]
      have hinserted : inserted dirname join installed expandGameplayCollections (some m) =
          members installed.all names := by
        simp [inserted, hexpanded, membersOf, hnames]
      simp only [expandCollection, Option.bind_some, hnames]
      rw [insertBefore, hinserted, findIdx_eq_idxOf hindex]

variable (dirname join installed) in
/-- The loop over the collections that are expanded. -/
theorem foldl_expandCollection (expandGameplayCollections : Bool)
    {mods l : List (Option FrostyMod)} (hmods : ∀ x ∈ mods, Known installed x)
    (hl : ∀ o ∈ l, Known installed o) :
    (l.filter (isExpanded expandGameplayCollections)).foldl
        (expandCollection dirname join installed) mods =
      l.foldl (insertBefore (inserted dirname join installed expandGameplayCollections)) mods := by
  induction l generalizing mods with
  | nil => rfl
  | cons o l ih =>
      obtain ⟨ho, hl⟩ := List.forall_mem_cons.mp hl
      cases hexpanded : isExpanded expandGameplayCollections o with
      | false =>
          have hnil : inserted dirname join installed expandGameplayCollections o = [] := by
            rw [inserted, hexpanded, if_neg Bool.false_ne_true]
          rw [List.filter_cons_of_neg (by simp [hexpanded]), List.foldl_cons,
            insertBefore_of_nil hnil]
          exact ih hmods hl
      | true =>
          rw [List.filter_cons_of_pos hexpanded, List.foldl_cons, List.foldl_cons,
            expandCollection_eq hmods ho hexpanded]
          refine ih (fun x hx => ?_) hl
          obtain hx | hx := List.mem_append.mp ((insertBefore_perm mods o).mem_iff.mp hx)
          · exact hmods x hx
          · exact known_inserted _ o x hx

variable (dirname join installed) in
/-- A mod of a collection, behind its members if the dialog expands it. -/
def withMembers (o : Option FrostyMod) : List (Option FrostyMod) :=
  if isExpanded false o then
    (o.toList.flatMap (membersOf dirname join installed.all)) ++ [o]
  else [o]

theorem withMembers_eq (o : Option FrostyMod) :
    withMembers dirname join installed o = inserted dirname join installed false o ++ [o] := by
  unfold withMembers inserted
  split <;> rfl

theorem known_localMods (c : ModCollectionMetaData) :
    ∀ o ∈ c.mods.map (localMod installed), Known installed o := by
  intro o ho m hm
  obtain ⟨mod, -, hmod⟩ := List.mem_map.mp ho
  rw [hm] at hmod
  exact mem_all_of_localMod hmod

theorem fresh_of_plain {c : ModCollectionMetaData} (h : Plain dirname join installed c) :
    Fresh (inserted dirname join installed false) (c.mods.map (localMod installed)) := by
  intro before o after hl hne hmem
  have hexpanded : isExpanded false o = true := by
    rw [← Bool.not_eq_false]
    intro hnot
    rw [inserted, hnot] at hne
    exact hne rfl
  have ho : o ∈ expanded installed c := List.mem_filter.mpr ⟨by rw [hl]; simp, hexpanded⟩
  obtain ⟨x, hx, hmem⟩ := List.mem_flatMap.mp hmem
  obtain hmem | hmem := List.mem_append.mp hmem
  · -- in the members of an earlier one
    unfold inserted at hmem
    split at hmem
    · next hx' =>
        obtain ⟨m, hm, hmem⟩ := List.mem_flatMap.mp hmem
        rw [Option.mem_toList] at hm
        exact h.apart m (List.mem_filter.mpr ⟨by rw [hl, ← hm]; simp [hx], by rwa [← hm]⟩) o hmem ho
    · cases hmem
  · -- an earlier one itself
    have hnodup := h.nodup
    rw [expanded, hl, List.filter_append, List.filter_cons_of_pos hexpanded] at hnodup
    refine (List.nodup_cons.mp (List.nodup_middle.mp hnodup)).1 (List.mem_append_left _ ?_)
    rw [List.mem_singleton.mp hmem] at hexpanded ⊢
    exact List.mem_filter.mpr ⟨hx, hexpanded⟩

/-- The gameplay mods of a plain collection, mod by mod. -/
theorem gameplayMods_eq {c : ModCollectionMetaData} (h : Plain dirname join installed c) :
    gameplayMods dirname join installed c =
      (c.mods.map (localMod installed)).flatMap fun o =>
        ((withMembers dirname join installed o).filter (·.any isGameplay)).filterMap id := by
  have hfold := foldl_expandCollection dirname join installed false (known_localMods c) (known_localMods c)
  rw [foldl_insertBefore_of_fresh (fresh_of_plain h)] at hfold
  simp only [gameplayMods, getLocalMods, if_true]
  rw [hfold, withBlocks, List.filter_flatMap, List.filterMap_flatMap]
  simp only [withMembers_eq]

variable (dirname join) in
/-- The files of the gameplay mods among some members are among the files of the members. -/
theorem files_gameplay_sublist {names : List DartString}
    (hplain : ∀ x, some x ∈ members installed.all names → isGameplay x = true →
      x.isCollection = false) :
    ((((members installed.all names).filter (·.any isGameplay)).filterMap id).flatMap
      (files dirname join)).Sublist names := by
  induction names with
  | nil => exact .refl _
  | cons name names ih =>
      simp only [members, List.map_cons, List.mem_cons] at hplain
      have hrest := ih fun x hx => hplain x (.inr hx)
      cases hfind : installed.all.find? (hasFilename name) with
      | none =>
          simp only [members, List.map_cons, hfind]
          exact hrest.cons name
      | some x =>
          cases hgameplay : isGameplay x with
          | false =>
              simp only [members, List.map_cons, hfind]
              rw [List.filter_cons_of_neg (by simp [hgameplay])]
              exact hrest.cons name
          | true =>
              have hname : x.filename = name := by
                simpa [hasFilename] using List.find?_some hfind
              have hfiles : files dirname join x = [name] := by
                rw [files, hplain x (.inl hfind.symm) hgameplay, if_neg Bool.false_ne_true, hname]
              simp only [members, List.map_cons, hfind]
              rw [List.filter_cons_of_pos (by simp [hgameplay])]
              simp only [List.filterMap_cons, id_eq, List.flatMap_cons, hfiles,
                List.singleton_append]
              exact hrest.cons_cons name

/-- The gameplay mods that the dialog finds at a place have their files at this place. -/
theorem files_withMembers_sublist {o : Option FrostyMod}
    (hplain : ∀ m, o = some m → isExpanded false o = true →
      ∀ x, some x ∈ membersOf dirname join installed.all m → isGameplay x = true →
        x.isCollection = false) :
    ((((withMembers dirname join installed o).filter (·.any isGameplay)).filterMap id).flatMap
      (files dirname join)).Sublist (o.toList.flatMap (files dirname join)) := by
  cases o with
  | none => exact .refl _
  | some m =>
      cases hexpanded : isExpanded false (some m) with
      | false =>
          simp only [withMembers, hexpanded, Bool.false_eq_true, if_false]
          cases hgameplay : isGameplay m <;> simp [hgameplay]
      | true =>
          have hmembers := files_gameplay_sublist dirname join (hplain m rfl hexpanded)
          have hwith : withMembers dirname join installed (some m) =
              membersOf dirname join installed.all m ++ [some m] := by
            simp [withMembers, hexpanded]
          simp only [isExpanded, Bool.false_or, Bool.and_eq_true, Bool.not_eq_true'] at hexpanded
          have hfiles : files dirname join m = (getMods dirname join m).getD [] := by
            rw [files, hexpanded.1, if_pos rfl]
          have hlast : ([some m] : List (Option FrostyMod)).filter (·.any isGameplay) = [] := by
            simp [hexpanded.2]
          rw [hwith, List.filter_append, hlast, List.append_nil, Option.toList_some,
            List.flatMap_singleton, hfiles]
          exact hmembers

theorem flatMap_sublist {α β γ : Type} {l : List α} {f : α → List β} {g : α → List γ}
    {h : β → List γ} (hsub : ∀ a ∈ l, ((f a).flatMap h).Sublist (g a)) :
    ((l.flatMap f).flatMap h).Sublist (l.flatMap g) := by
  induction l with
  | nil => exact .refl _
  | cons a l ih =>
      rw [List.flatMap_cons, List.flatMap_append, List.flatMap_cons]
      exact (hsub a List.mem_cons_self).append (ih fun b hb => hsub b (List.mem_cons_of_mem _ hb))

/-- The files of the gameplay mods are among those that the game gets, in their order. -/
theorem files_gameplayMods_sublist {c : ModCollectionMetaData}
    (h : Plain dirname join installed c) :
    ((gameplayMods dirname join installed c).flatMap (files dirname join)).Sublist
      ((c.mods.filterMap (localMod installed)).flatMap (files dirname join)) := by
  have hpaths : (c.mods.filterMap (localMod installed)).flatMap (files dirname join) =
      (c.mods.map (localMod installed)).flatMap fun o =>
        o.toList.flatMap (files dirname join) := by
    rw [List.filterMap_eq_flatMap_toList, List.flatMap_assoc, List.flatMap_map]
  rw [gameplayMods_eq h, hpaths]
  refine flatMap_sublist fun o ho => files_withMembers_sublist fun m hm hexpanded => ?_
  refine h.gameplay m ?_
  rw [← hm]
  exact List.mem_filter.mpr ⟨ho, hexpanded⟩

theorem known_withMembers {o : Option FrostyMod} (ho : Known installed o) :
    ∀ x ∈ withMembers dirname join installed o, Known installed x := by
  intro x hx
  unfold withMembers at hx
  split at hx
  · rcases List.mem_append.mp hx with hx | hx
    · obtain ⟨m, -, hx⟩ := List.mem_flatMap.mp hx
      exact known_members _ x hx
    · rw [List.mem_singleton.mp hx]
      exact ho
  · rw [List.mem_singleton.mp hx]
    exact ho

theorem mem_all_of_gameplayMods {c : ModCollectionMetaData} (h : Plain dirname join installed c) :
    ∀ m ∈ gameplayMods dirname join installed c, m ∈ installed.all := by
  intro m hm
  rw [gameplayMods_eq h] at hm
  obtain ⟨o, ho, hm⟩ := List.mem_flatMap.mp hm
  obtain ⟨x, hx, rfl⟩ := List.mem_filterMap.mp hm
  exact known_withMembers (known_localMods c o ho) _ (List.mem_filter.mp hx).1 m rfl

theorem forall₂_isMod {es : List ServerMod} {ms : List FrostyMod}
    (hms : ∀ m ∈ ms, m ∈ installed.all)
    (heq : ms.map (fun m => identity (toCollectionMod m)) =
      es.map fun e => (e.name, e.version, e.link)) :
    List.Forall₂ (IsMod installed) es ms := by
  induction ms generalizing es with
  | nil =>
      cases es with
      | nil => exact .nil
      | cons => cases heq
  | cons m ms ih =>
      cases es with
      | nil => cases heq
      | cons e es =>
          simp only [List.map_cons, List.cons.injEq, identity, toCollectionMod,
            Prod.mk.injEq] at heq
          obtain ⟨⟨hname, hversion, -⟩, hrest⟩ := heq
          exact .cons ⟨hms m List.mem_cons_self, hname, hversion⟩
            (ih (fun x hx => hms x (List.mem_cons_of_mem _ hx)) hrest)

/-- A collection that is offered because its gameplay mods are those of the server has them. -/
theorem has_of_sameMods (dirname : DartString → DartString)
    (join : DartString → DartString → DartString) (installed : Installed) (server : Server)
    (c : ModCollectionMetaData) (hsame : sameMods dirname join installed server c = true)
    (hplain : Plain dirname join installed c) :
    Has dirname join installed (c.mods.filterMap (localMod installed)) server.mods := by
  refine ⟨gameplayMods dirname join installed c, ?_, files_gameplayMods_sublist hplain⟩
  refine forall₂_isMod (mem_all_of_gameplayMods hplain) ?_
  simpa [sameMods, serverMods, identity, Function.comp_def] using hsame

/-! ## Joining -/

/-- Nothing has to be loaded. -/
theorem joins_nothing {server : Server} (selected : Option ModCollectionMetaData)
    (hintact : ∀ e ∈ server.mods, Intact dirname join installed e)
    (hhas : Has dirname join installed [] server.mods) :
    Joins dirname join installed server selected := by
  intro hall
  have hinstalled := isInstalled_of_allM hall
  obtain ⟨_, -, -, hmods⟩ :=
    collectionMods_eq (fun e he => firstWhere_of_isInstalled (hinstalled e he)) hintact
  have hpaths : ∃ paths, joinServer dirname join installed server selected = .ok paths := by
    by_cases hnone : server.id = noModsId ∨ selected = none
    · exact ⟨[], joinServer_eq_nil hnone hmods⟩
    · obtain ⟨hid, hsome⟩ := not_or.mp hnone
      obtain ⟨c, rfl⟩ := Option.ne_none_iff_exists'.mp hsome
      exact ⟨_, joinServer_eq hid hmods⟩
  obtain ⟨paths, hpaths⟩ := hpaths
  obtain ⟨ms, hms, hfiles⟩ := hhas
  exact ⟨paths, ms, hpaths, hms, hfiles.trans (List.nil_sublist _)⟩

/-- The collection has the mods of the server itself. -/
theorem joins_of_has {server : Server} {c : ModCollectionMetaData} (hid : server.id ≠ noModsId)
    (hintact : ∀ e ∈ server.mods, Intact dirname join installed e)
    (hhas : Has dirname join installed (c.mods.filterMap (localMod installed)) server.mods) :
    Joins dirname join installed server (some c) := by
  intro hall
  have hinstalled := isInstalled_of_allM hall
  obtain ⟨_, -, -, hmods⟩ :=
    collectionMods_eq (fun e he => firstWhere_of_isInstalled (hinstalled e he)) hintact
  obtain ⟨ms, hms, hfiles⟩ := hhas
  refine ⟨_, ms, joinServer_eq hid hmods, hms, hfiles.trans ?_⟩
  rw [List.filterMap_append, List.flatMap_append]
  exact List.sublist_append_right _ _

/-- What the dialog offers because its gameplay mods are those of the server loads them. -/
theorem joins_offered {server : Server} {c : ModCollectionMetaData} (hid : server.id ≠ noModsId)
    (hintact : ∀ e ∈ server.mods, Intact dirname join installed e)
    (hsame : sameMods dirname join installed server c = true)
    (hplain : Plain dirname join installed c) :
    Joins dirname join installed server (some c) :=
  joins_of_has hid hintact (has_of_sameMods dirname join installed server c hsame hplain)

/-- What the mods of the server need to be loaded. -/
theorem keepsMods_of_joins {server : Server} {selected : Option ModCollectionMetaData}
    (hall : hasAllRequiredMods dirname join installed server = .ok true)
    (hfound : ¬ Misled dirname join installed server selected)
    (h : Joins dirname join installed server selected) :
    KeepsMods dirname join installed server selected := by
  obtain ⟨paths, ms, hpaths, hms, hfiles⟩ := h hall
  obtain ⟨cMods, hmods⟩ : ∃ cMods,
      collectionMods dirname join installed server.mods = .ok cMods := by
    simp only [joinServer, bind, Except.bind] at hpaths
    split at hpaths
    · cases hpaths
    · exact ⟨_, ‹_›⟩
  refine ⟨intact_of_collectionMods hmods, ?_⟩
  by_cases hnone : server.id = noModsId ∨ selected = none
  · rw [joinServer_eq_nil hnone hmods] at hpaths
    cases hpaths
    exact .inl ⟨ms, hms, hfiles⟩
  · obtain ⟨hid, hsome⟩ := not_or.mp hnone
    obtain ⟨c, rfl⟩ := Option.ne_none_iff_exists'.mp hsome
    refine .inr ⟨hid, c, rfl, ?_⟩
    rw [joinServer_eq hid hmods] at hpaths
    cases hpaths
    cases hgameplay : containsGameplayMods dirname join installed c with
    | true =>
        rw [hgameplay, if_pos rfl, List.nil_append] at hfiles
        exact .inl ⟨ms, hms, hfiles⟩
    | false =>
        refine .inr ⟨rfl, fun e he => ?_⟩
        by_contra hnot
        exact hfound ⟨c, rfl, hgameplay, e, he, hnot⟩

/-- Joining loads the mods of the server, if they are found intact and a collection is selected
that has them, or that has no gameplay mods and what is found are the server's mods. Unless
something else is added for one of them, it does so only then. -/
theorem joins_iff_keepsMods (dirname : DartString → DartString)
    (join : DartString → DartString → DartString) (installed : Installed) (server : Server)
    (selected : Option ModCollectionMetaData) :
    (KeepsMods dirname join installed server selected →
      Joins dirname join installed server selected) ∧
    (hasAllRequiredMods dirname join installed server = .ok true →
      ¬ Misled dirname join installed server selected →
      Joins dirname join installed server selected →
      KeepsMods dirname join installed server selected) := by
  refine ⟨?_, keepsMods_of_joins⟩
  rintro ⟨hintact, hnothing | ⟨hid, c, rfl, hhas | ⟨hgameplay, hresolves⟩⟩⟩
  · exact joins_nothing selected hintact hnothing
  · exact joins_of_has hid hintact hhas
  · exact joins_added hid hintact hgameplay hresolves

end

/-! ## Where they are not loaded -/

section

/-- A mod of the category `Gameplay`. -/
def gameplayMod (name : DartString) : FrostyMod where
  version := 5
  gameVersion := 1
  filename := name ++ [0x2e, 0x66, 0x62, 0x6d, 0x6f, 0x64]
  details :=
    { name
      author := []
      category := [0x47, 0x61, 0x6d, 0x65, 0x70, 0x6c, 0x61, 0x79]
      version := [0x31]
      description := [] }

/-- A collection of the same name, whose one member has been removed. -/
def brokenCollection (name : DartString) : FrostyMod :=
  { gameplayMod name with
    filename := name ++ [0x2e, 0x66, 0x62, 0x63]
    isCollection := true
    mods := some [[0x78]] }

def modA : FrostyMod := gameplayMod [0x41]

def modB : FrostyMod := gameplayMod [0x42]

def twoMods : Installed where
  mods := [modA, modB]
  hiddenMods := []
  nodup := by decide
  isCollection := by decide

def brokenFirst : Installed where
  mods := [brokenCollection [0x41], modA]
  hiddenMods := []
  nodup := by decide
  isCollection := by decide

def requiredA : ServerMod where
  name := [0x41]
  version := [0x31]
  link := []

/-- A server that wants `modA`. -/
def serverOfA : Server where
  id := [0x73]
  name := [0x53]
  mods := [requiredA]

/-- Marked as cosmetic, with `modB` in it. -/
def cosmetics : ModCollectionMetaData where
  localId := [0x63]
  title := [0x43]
  mods := [toCollectionMod modB]
  isCosmetic := true

/-- The working directory, in which all the files are. -/
def here (_ : DartString) : DartString := [0x2e]

/-- `path.join` for names without a slash at their ends. -/
def joinPath (dir name : DartString) : DartString := dir ++ [0x2f] ++ name

/-- A mod of the category `Skin`. -/
def skin : FrostyMod where
  version := 5
  gameVersion := 1
  filename := [0x73, 0x6b, 0x69, 0x6e]
  details :=
    { name := [0x73]
      author := []
      category := [0x53, 0x6b, 0x69, 0x6e]
      version := [0x31]
      description := [] }

/-- A collection of skins. -/
def skinPack : FrostyMod :=
  { skin with
    filename := [0x70, 0x61, 0x63, 0x6b]
    isCollection := true
    mods := some [skin.filename] }

def skinned : Installed where
  mods := [modA, modB, skinPack, skin]
  hiddenMods := []
  nodup := by decide
  isCollection := by decide

/-- `modA` and the skins, twice. -/
def skinnedA : ModCollectionMetaData where
  localId := [0x64]
  title := [0x44]
  mods := [toCollectionMod modA, toCollectionMod skinPack, toCollectionMod skinPack]

theorem intact_skinned : ∀ e ∈ serverOfA.mods, Intact here joinPath skinned e := by
  have hfirst : ∀ e ∈ serverOfA.mods, firstWhere skinned e = some modA := by decide
  intro e he m hm hcollection
  rw [hfirst e he] at hm
  cases hm
  cases hcollection

theorem keepsMods_noMods : KeepsMods here joinPath skinned serverOfA (some noMods) := by
  have hfirst : ∀ e ∈ serverOfA.mods, firstWhere skinned e = some modA := by decide
  refine ⟨intact_skinned, .inr ⟨by decide, noMods, rfl, .inr ⟨by decide, fun e he m hm => ?_⟩⟩⟩
  rw [hfirst e he] at hm
  cases hm
  refine ⟨?_, fun hcollection => by cases hcollection⟩
  rw [List.mem_singleton.mp he]
  decide

theorem keepsMods_skinnedA : KeepsMods here joinPath skinned serverOfA (some skinnedA) := by
  refine ⟨intact_skinned, .inr ⟨by decide, skinnedA, rfl, .inl ⟨[modA], ?_, by decide⟩⟩⟩
  exact .cons ⟨by decide, by decide, by decide⟩ .nil

/-- The mod of the server is added to a collection without mods, and found in one that has it. -/
theorem joins_skinned :
    hasAllRequiredMods here joinPath skinned serverOfA = .ok true ∧
      Joins here joinPath skinned serverOfA (some noMods) ∧
      Joins here joinPath skinned serverOfA (some skinnedA) :=
  ⟨by decide, (joins_iff_keepsMods here joinPath skinned serverOfA _).1 keepsMods_noMods,
    (joins_iff_keepsMods here joinPath skinned serverOfA _).1 keepsMods_skinnedA⟩

section

variable {dirname : DartString → DartString} {join : DartString → DartString → DartString}
  {installed : Installed}

theorem exists_isMod_of_mem {es : List ServerMod} {ms : List FrostyMod} {e : ServerMod}
    (hms : List.Forall₂ (IsMod installed) es ms) (he : e ∈ es) :
    ∃ m, IsMod installed e m ∧
      (files dirname join m).Sublist (ms.flatMap (files dirname join)) := by
  induction hms with
  | nil => cases he
  | cons hmod _ ih =>
      rw [List.flatMap_cons]
      rcases List.mem_cons.mp he with rfl | he
      · exact ⟨_, hmod, List.sublist_append_left _ _⟩
      · obtain ⟨m, hm, hsub⟩ := ih he
        exact ⟨m, hm, hsub.trans (List.sublist_append_right _ _)⟩

/-- A mod of the server whose files the game does not get, whichever file is read for it. -/
theorem not_joins_of_paths {server : Server} {selected : Option ModCollectionMetaData}
    (paths : List DartString) {e : ServerMod}
    (hall : hasAllRequiredMods dirname join installed server = .ok true)
    (hpaths : joinServer dirname join installed server selected = .ok paths)
    (he : e ∈ server.mods)
    (hmissing : ∀ m ∈ installed.all, hasName e.name e.version m = true →
      ¬ (files dirname join m).Sublist paths) :
    ¬ Joins dirname join installed server selected := by
  intro h
  obtain ⟨_, ms, hpaths', hms, hsub⟩ := h hall
  rw [hpaths] at hpaths'
  cases hpaths'
  obtain ⟨m, hmod, hm⟩ := exists_isMod_of_mem hms he
  refine hmissing m hmod.installed ?_ (hm.trans hsub)
  simp [hasName, hmod.name, hmod.version]

end

/-- With no collection the game gets no mods, with a collection that is only marked as cosmetic
it gets its gameplay mods instead of the server's, and a broken collection of the name is
taken for the mod, though the mod is installed. -/
theorem joins_fails :
    ¬ Joins here joinPath twoMods serverOfA none ∧
      (cosmetics ∈ offered here joinPath twoMods serverOfA [cosmetics] ∧
        ¬ Joins here joinPath twoMods serverOfA (some cosmetics)) ∧
      ¬ Joins here joinPath brokenFirst serverOfA (some noMods) := by
  have hall : hasAllRequiredMods here joinPath twoMods serverOfA = .ok true := by decide
  have hmem : requiredA ∈ serverOfA.mods := List.mem_singleton.mpr rfl
  refine ⟨?_, ⟨by decide, ?_⟩, fun h => ?_⟩
  · exact not_joins_of_paths [] hall rfl hmem (by decide)
  · exact not_joins_of_paths [modB.filename] hall (by decide) hmem (by decide)
  · obtain ⟨paths, -, hpaths, -⟩ := h (by decide)
    have hthrows : joinServer here joinPath brokenFirst serverOfA (some noMods) =
        .error (.exception (corruptedMessage [0x41])) := by decide
    rw [hthrows] at hpaths
    cases hpaths

end

end Kyber.Join
