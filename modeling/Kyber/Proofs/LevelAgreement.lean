import Kyber.Launcher.LevelDeclarations
import Kyber.Lib.Writes
import Kyber.Proofs.JoinServer

/-!
# Declared maps and modes are found again

What is looked up in the mods of a collection should be the same, whichever way it is looked
up. For maps it is: a map that is found for a mode is found again under the mode that it
supports. For the names of modes it is not so. The list of modes takes the name that a mod
gives to a mode after the one it declares it with, and looks only at what is listed; the
lookup of a name takes them in the other order, and looks at all declarations.
-/

namespace Kyber.Launcher.Levels

open Kyber.Collection (ModCollectionMetaData)
open Kyber.Join (Installed JoinError getModPaths)
open Kyber.Lib

section

variable {entries : List ModEntry} {modEntry : ModEntry} {mode : DartString}

/-! ## Maps -/

theorem exists_supportedMode {l : List DartString}
    (h : mode ∈ l.map fun e => (modEntry.modeMappings.lookup e).getD e) :
    ∃ s ∈ l, supportedMode modEntry mode l = some s := by
  induction l with
  | nil => cases h
  | cons entry rest ih =>
      rw [supportedMode]
      by_cases hentry : entry = mode
      · rw [if_pos hentry]
        exact ⟨mode, hentry ▸ List.mem_cons_self, rfl⟩
      · rw [if_neg hentry]
        by_cases hmapped : modEntry.modeMappings.lookup entry = some mode
        · rw [if_pos hmapped]
          exact ⟨entry, List.mem_cons_self, rfl⟩
        · rw [if_neg hmapped]
          have hrest : mode ∈ rest.map fun e => (modEntry.modeMappings.lookup e).getD e := by
            refine (List.mem_cons.mp h).resolve_left fun heq => ?_
            change mode = (modEntry.modeMappings.lookup entry).getD entry at heq
            cases hlookup : modEntry.modeMappings.lookup entry with
            | none =>
                rw [hlookup] at heq
                exact hentry heq.symm
            | some s =>
                rw [hlookup] at heq
                exact hmapped (hlookup.trans (congrArg some heq.symm))
          obtain ⟨s, hs, hsupported⟩ := ih hrest
          exact ⟨s, List.mem_cons_of_mem _ hs, hsupported⟩

theorem mapForMode_eq_some {customMap : CustomMap} {m : KyberMap}
    (h : mapForMode modEntry mode customMap = some m) :
    m.map = customMap.map ∧ m.name = customMap.name ∧
      ∃ s ∈ customMap.supportedModes, m.mode = some s := by
  rw [mapForMode] at h
  split at h
  · cases h
  · next hmapped =>
      obtain ⟨s, hs, hsupported⟩ := exists_supportedMode (Classical.not_not.mp hmapped)
      obtain rfl := Option.some.inj h
      exact ⟨rfl, rfl, s, hs, hsupported⟩

theorem exists_of_mem_mapsForMode {m : KyberMap} (h : m ∈ mapsForMode entries mode) :
    ∃ modEntry ∈ entries, ∃ customMap ∈ modEntry.maps,
      m.map = customMap.map ∧ m.name = customMap.name ∧
        ∃ s ∈ customMap.supportedModes, m.mode = some s := by
  obtain ⟨modEntry, hentry, hm⟩ := List.mem_flatMap.mp h
  obtain ⟨customMap, hmap, hm⟩ := List.mem_filterMap.mp hm
  exact ⟨modEntry, hentry, customMap, hmap, mapForMode_eq_some hm⟩

theorem exists_findMap {customMap : CustomMap} (hentry : modEntry ∈ entries)
    (hmap : customMap ∈ modEntry.maps) (hmode : mode ∈ customMap.supportedModes) :
    ∃ found, findMap entries customMap.map mode = some found := by
  refine Option.isSome_iff_exists.mp ?_
  rw [findMap, List.findSome?_isSome_iff]
  refine ⟨modEntry, hentry, ?_⟩
  rw [List.findSome?_isSome_iff]
  refine ⟨customMap, hmap, ?_⟩
  rw [if_neg (by simp [hmode])]
  rfl

/-! ## Names of modes -/

/-- The last name that a mod declares for a mode. -/
def declaredName (mode : DartString) (modEntry : ModEntry) : Option DartString :=
  modEntry.modes.reverse.findSome? fun customMode =>
    if customMode.mode = mode then some customMode.name else none

/-- The name that a mod gives to a mode, declared or not. -/
def otherName (mode : DartString) (modEntry : ModEntry) : Option DartString :=
  modEntry.mapNameOverrides.lookup mode

/-- The last one of some mods. -/
def lastOtherName (mode : DartString) (entries : List ModEntry) : Option DartString :=
  entries.reverse.findSome? (otherName mode)

def mentions (mode : DartString) (modEntry : ModEntry) : Bool :=
  (otherName mode modEntry).isSome || (declaredName mode modEntry).isSome

/-- The last mod that says something about the name of a mode. -/
def lastMention (mode : DartString) (entries : List ModEntry) : Option ModEntry :=
  entries.reverse.find? (mentions mode)

theorem nextName_eq (mode : DartString) (modeName : Option DartString) (modEntry : ModEntry) :
    nextName mode modeName modEntry =
      ((declaredName mode modEntry).or (otherName mode modEntry)).or modeName := by
  have hstep : ∀ (s : Option DartString) (customMode : CustomMode),
      (if customMode.mode = mode then some customMode.name else s) =
        (if customMode.mode = mode then some customMode.name else none).or s := by
    intro s customMode
    split <;> rfl
  rw [Option.or_assoc]
  exact foldl_last_write (fun s (_ : Unit) => s)
    (fun customMode _ => if customMode.mode = mode then some customMode.name else none)
    (k := ()) hstep modEntry.modes _

/-- The last mod that says something decides, and a declaration before another name. -/
theorem modeName_eq :
    modeName entries mode = entries.reverse.findSome? fun modEntry =>
      (declaredName mode modEntry).or (otherName mode modEntry) :=
  (foldl_last_write (fun s (_ : Unit) => s)
    (fun modEntry _ => (declaredName mode modEntry).or (otherName mode modEntry))
    (k := ()) (nextName_eq mode) entries none).trans
    Option.or_none

/-- Where nothing is said about a mode by the others, the last mention of it is all there is. -/
theorem findSome?_of_find? {α β : Type} {p : α → Bool} {g : α → Option β} {l : List α} {a : α}
    {b : β} (h : l.find? p = some a) (hg : ∀ x, p x = false → g x = none) (ha : g a = some b) :
    l.findSome? g = some b := by
  induction l with
  | nil => cases h
  | cons x l ih =>
      rw [List.find?_cons] at h
      rw [List.findSome?_cons]
      cases hx : p x with
      | true =>
          rw [hx] at h
          obtain rfl := Option.some.inj h
          rw [ha]
      | false =>
          rw [hx] at h
          rw [hg x hx]
          exact ih h

theorem otherName_of_not_mentions (h : mentions mode modEntry = false) :
    otherName mode modEntry = none := by
  rw [mentions, Bool.or_eq_false_iff] at h
  simpa using h.1

theorem declaredName_of_not_mentions (h : mentions mode modEntry = false) :
    declaredName mode modEntry = none := by
  rw [mentions, Bool.or_eq_false_iff] at h
  simpa using h.2

/-! The list of modes. -/

theorem renamed_name (m : Mode) :
    (renamed modEntry m).name = (otherName m.mode modEntry).getD m.name := by
  rw [renamed, otherName]
  cases modEntry.mapNameOverrides.lookup m.mode <;> rfl

theorem renamed_mode (m : Mode) : (renamed modEntry m).mode = m.mode := by
  rw [renamed]
  split <;> rfl

theorem renamed_isCustom (m : Mode) : (renamed modEntry m).isCustom = m.isCustom := by
  rw [renamed]
  split <;> rfl

/-- A listed mode with the names that it is given later. -/
def renamedBy (entries : List ModEntry) (m : Mode) : Mode :=
  entries.foldl (fun m modEntry => renamed modEntry m) m

theorem renamedBy_mode (m : Mode) : (renamedBy entries m).mode = m.mode := by
  induction entries generalizing m with
  | nil => rfl
  | cons modEntry entries ih =>
      rw [renamedBy, List.foldl_cons]
      exact (ih _).trans (renamed_mode m)

theorem renamedBy_isCustom (m : Mode) : (renamedBy entries m).isCustom = m.isCustom := by
  induction entries generalizing m with
  | nil => rfl
  | cons modEntry entries ih =>
      rw [renamedBy, List.foldl_cons]
      exact (ih _).trans (renamed_isCustom m)

theorem renamedBy_name (m : Mode) :
    (renamedBy entries m).name = (lastOtherName m.mode entries).getD m.name := by
  induction entries generalizing m with
  | nil => rfl
  | cons modEntry entries ih =>
      rw [renamedBy, List.foldl_cons]
      refine (ih _).trans ?_
      rw [renamed_mode, renamed_name, lastOtherName, lastOtherName, findSome?_reverse_cons]
      cases entries.reverse.findSome? (otherName m.mode) <;> rfl

/-- The modes that are listed for the mods themselves. -/
def listed : List ModEntry → List Mode
  | [] => []
  | modEntry :: entries =>
      (modEntry.modes.filterMap (listedMode modEntry)).map (renamedBy (modEntry :: entries)) ++
        listed entries

theorem foldl_nextModes (modeList : List Mode) :
    entries.foldl nextModes modeList = modeList.map (renamedBy entries) ++ listed entries := by
  induction entries generalizing modeList with
  | nil =>
      rw [listed, List.append_nil]
      exact (List.map_id modeList).symm
  | cons modEntry entries ih =>
      rw [List.foldl_cons, ih, nextModes, List.map_map, List.map_append, List.append_assoc]
      rfl

theorem mem_listed_iff {m : Mode} :
    m ∈ listed entries ↔ ∃ before modEntry after customMode m₀,
      entries = before ++ modEntry :: after ∧ customMode ∈ modEntry.modes ∧
        listedMode modEntry customMode = some m₀ ∧ m = renamedBy (modEntry :: after) m₀ := by
  induction entries with
  | nil => simp [listed]
  | cons modEntry entries ih =>
      rw [listed, List.mem_append, ih]
      constructor
      · intro h
        obtain hm | ⟨before, e, after, customMode, m₀, rfl, hm⟩ := h
        · obtain ⟨m₀, hm₀, rfl⟩ := List.mem_map.mp hm
          obtain ⟨customMode, hmode, hlisted⟩ := List.mem_filterMap.mp hm₀
          exact ⟨[], modEntry, entries, customMode, m₀, rfl, hmode, hlisted, rfl⟩
        · exact ⟨modEntry :: before, e, after, customMode, m₀, rfl, hm⟩
      · intro h
        obtain ⟨before, e, after, customMode, m₀, heq, hmode, hlisted, rfl⟩ := h
        cases before with
        | nil =>
            obtain ⟨rfl, rfl⟩ := List.cons.inj heq
            refine .inl (List.mem_map_of_mem ?_)
            exact List.mem_filterMap.mpr ⟨customMode, hmode, hlisted⟩
        | cons first before =>
            obtain ⟨rfl, rfl⟩ := List.cons.inj heq
            exact .inr ⟨before, e, after, customMode, m₀, rfl, hmode, hlisted, rfl⟩

/-! ## The names that are listed -/

/-- A mod that declares a mode mentions it. -/
theorem mentions_of_mem {customMode : CustomMode} (h : customMode ∈ modEntry.modes) :
    mentions customMode.mode modEntry = true := by
  have hdeclared : (declaredName customMode.mode modEntry).isSome := by
    rw [declaredName, List.findSome?_isSome_iff]
    refine ⟨customMode, List.mem_reverse.mpr h, ?_⟩
    rw [if_pos rfl]
    rfl
  rw [mentions, hdeclared, Bool.or_true]

/-- What is behind a mod that mentions the mode decides. -/
theorem lastMention_append {before after : List ModEntry} (h : mentions mode modEntry = true) :
    lastMention mode (before ++ modEntry :: after) = lastMention mode (modEntry :: after) := by
  have hfound : ((modEntry :: after).reverse.find? (mentions mode)).isSome := by
    rw [List.find?_isSome]
    exact ⟨modEntry, List.mem_reverse.mpr List.mem_cons_self, h⟩
  obtain ⟨last, hlast⟩ := Option.isSome_iff_exists.mp hfound
  rw [lastMention, lastMention, List.reverse_append, List.find?_append, hlast]
  rfl

theorem modeName_of_lastMention {last : ModEntry} (h : lastMention mode entries = some last) :
    modeName entries mode = (declaredName mode last).or (otherName mode last) := by
  have hmentions : mentions mode last = true := List.find?_some h
  have hsome : ((declaredName mode last).or (otherName mode last)).isSome := by
    rw [Option.isSome_or, Bool.or_comm]
    exact hmentions
  obtain ⟨name, hname⟩ := Option.isSome_iff_exists.mp hsome
  rw [modeName_eq, hname]
  refine findSome?_of_find? h (fun e he => ?_) hname
  rw [declaredName_of_not_mentions he, otherName_of_not_mentions he]
  rfl

theorem lastOtherName_of_lastMention {last : ModEntry} {name : DartString}
    (h : lastMention mode entries = some last) (hname : otherName mode last = some name) :
    lastOtherName mode entries = some name :=
  findSome?_of_find? h (fun _ he => otherName_of_not_mentions he) hname

/-- The name that is listed for a declaration, with the mods from the declaring one on. -/
def listedName (customMode : CustomMode) (entries : List ModEntry) : DartString :=
  (lastOtherName customMode.mode entries).getD customMode.name

/-- The last mod that mentions a mode has to give the name that is listed for it: with another
name for the mode and no further one in a declaration, or with a declaration only. -/
def Settles (last : ModEntry) (customMode : CustomMode) (entries : List ModEntry) : Prop :=
  (∀ name, otherName customMode.mode last = some name →
    declaredName customMode.mode last = none ∨ declaredName customMode.mode last = some name) ∧
  (otherName customMode.mode last = none →
    declaredName customMode.mode last = some (listedName customMode entries))

/-- For all modes that the mods declare and do not map to others. -/
def NamedAlike (entries : List ModEntry) : Prop :=
  ∀ before modEntry after, entries = before ++ modEntry :: after →
    ∀ customMode ∈ modEntry.modes, modEntry.modeMappings.lookup customMode.mode = none →
      ∀ last, lastMention customMode.mode entries = some last →
        Settles last customMode (modEntry :: after)

theorem modeName_eq_listedName_iff {before after : List ModEntry} {customMode : CustomMode}
    {last : ModEntry} (hmode : customMode ∈ modEntry.modes)
    (hlast : lastMention customMode.mode (before ++ modEntry :: after) = some last) :
    modeName (before ++ modEntry :: after) customMode.mode =
        some (listedName customMode (modEntry :: after)) ↔
      Settles last customMode (modEntry :: after) := by
  have hbehind : lastMention customMode.mode (modEntry :: after) = some last :=
    (lastMention_append (mentions_of_mem hmode)).symm.trans hlast
  rw [modeName_of_lastMention hlast]
  cases hother : otherName customMode.mode last with
  | none =>
      rw [Option.or_none]
      refine ⟨fun h => ⟨fun name hname => ?_, fun _ => h⟩, fun h => h.2 hother⟩
      cases hother.symm.trans hname
  | some name =>
      have hname : listedName customMode (modEntry :: after) = name := by
        rw [listedName, lastOtherName_of_lastMention hbehind hother]
        rfl
      rw [hname]
      refine ⟨fun h => ⟨fun name' hname' => ?_, fun hnone => ?_⟩, fun h => ?_⟩
      · obtain rfl := Option.some.inj (hother.symm.trans hname')
        cases hdeclared : declaredName customMode.mode last with
        | none => exact .inl rfl
        | some declared =>
            rw [hdeclared] at h
            exact .inr h
      · cases hother.symm.trans hnone
      · obtain hdeclared | hdeclared := h.1 name hother
        · rw [hdeclared]
          rfl
        · rw [hdeclared]
          rfl

theorem listedMode_eq_some_iff {customMode : CustomMode} :
    (∃ m₀, listedMode modEntry customMode = some m₀) ↔
      modEntry.modeMappings.lookup customMode.mode = none := by
  rw [listedMode]
  cases modEntry.modeMappings.lookup customMode.mode with
  | none => simp
  | some mapped => simp

theorem listedMode_eq_some {customMode : CustomMode} {m : Mode}
    (h : listedMode modEntry customMode = some m) :
    m.mode = customMode.mode ∧ m.name = customMode.name ∧ m.isCustom = true := by
  rw [listedMode] at h
  split at h
  · cases h
  · obtain rfl := Option.some.inj h
    exact ⟨rfl, rfl, rfl⟩

/-- A custom mode of the list is a declaration of a mod, with the name that is listed for it. -/
theorem exists_of_mem_modeList {includeDefaults : Bool} {m : Mode}
    (h : m ∈ modeList entries includeDefaults) (hcustom : m.isCustom = true) :
    ∃ before modEntry after customMode, entries = before ++ modEntry :: after ∧
      customMode ∈ modEntry.modes ∧ modEntry.modeMappings.lookup customMode.mode = none ∧
      m.mode = customMode.mode ∧ m.name = listedName customMode (modEntry :: after) := by
  rw [modeList, foldl_nextModes, List.mem_append] at h
  obtain h | h := h
  · obtain ⟨m₀, hm₀, rfl⟩ := List.mem_map.mp h
    rw [renamedBy_isCustom] at hcustom
    cases includeDefaults with
    | false => cases hm₀
    | true =>
        obtain ⟨mode, -, rfl⟩ := List.mem_map.mp hm₀
        cases hcustom
  · obtain ⟨before, modEntry, after, customMode, m₀, heq, hmode, hlisted, rfl⟩ :=
      mem_listed_iff.mp h
    obtain ⟨hid, hname, -⟩ := listedMode_eq_some hlisted
    refine ⟨before, modEntry, after, customMode, heq, hmode,
      listedMode_eq_some_iff.mp ⟨m₀, hlisted⟩, ?_, ?_⟩
    · rw [renamedBy_mode, hid]
    · rw [renamedBy_name, hid, hname, listedName]

theorem isCustom_of_mem_modeList {m : Mode} (h : m ∈ modeList entries false) :
    m.isCustom = true := by
  rw [modeList, foldl_nextModes, List.mem_append] at h
  obtain h | h := h
  · cases h
  · obtain ⟨before, modEntry, after, customMode, m₀, -, -, hlisted, rfl⟩ := mem_listed_iff.mp h
    rw [renamedBy_isCustom]
    exact (listedMode_eq_some hlisted).2.2

/-- And all those declarations are there. -/
theorem exists_mem_modeList (before after : List ModEntry) {customMode : CustomMode}
    (includeDefaults : Bool) (hmode : customMode ∈ modEntry.modes)
    (hmapped : modEntry.modeMappings.lookup customMode.mode = none) :
    ∃ m ∈ modeList (before ++ modEntry :: after) includeDefaults, m.isCustom = true ∧
      m.mode = customMode.mode ∧ m.name = listedName customMode (modEntry :: after) := by
  obtain ⟨m₀, hlisted⟩ := listedMode_eq_some_iff.mpr hmapped
  obtain ⟨hid, hname, hcustom⟩ := listedMode_eq_some hlisted
  refine ⟨renamedBy (modEntry :: after) m₀, ?_, ?_, ?_, ?_⟩
  · rw [modeList, foldl_nextModes]
    exact List.mem_append_right _
      (mem_listed_iff.mpr ⟨before, modEntry, after, customMode, m₀, rfl, hmode, hlisted, rfl⟩)
  · rw [renamedBy_isCustom, hcustom]
  · rw [renamedBy_mode, hid]
  · rw [renamedBy_name, hid, hname, listedName]

theorem exists_lastMention (before after : List ModEntry) {customMode : CustomMode}
    (hmode : customMode ∈ modEntry.modes) :
    ∃ last, lastMention customMode.mode (before ++ modEntry :: after) = some last := by
  refine Option.isSome_iff_exists.mp ?_
  rw [lastMention, List.find?_isSome]
  refine ⟨modEntry, ?_, mentions_of_mem hmode⟩
  rw [List.mem_reverse]
  exact List.mem_append_right _ List.mem_cons_self

/-- The list and the lookup agree exactly if the last mentions settle the names. -/
theorem names_agree_iff (includeDefaults : Bool) :
    (∀ m ∈ modeList entries includeDefaults, m.isCustom = true →
      modeName entries m.mode = some m.name) ↔ NamedAlike entries := by
  refine ⟨fun h => ?_, fun h m hm hcustom => ?_⟩
  · intro before modEntry after heq customMode hmode hmapped last hlast
    subst heq
    obtain ⟨m, hm, hcustom, hid, hname⟩ :=
      exists_mem_modeList before after includeDefaults hmode hmapped
    have hagree := h m hm hcustom
    rw [hid, hname] at hagree
    exact (modeName_eq_listedName_iff hmode hlast).mp hagree
  · obtain ⟨before, modEntry, after, customMode, rfl, hmode, hmapped, hid, hname⟩ :=
      exists_of_mem_modeList hm hcustom
    obtain ⟨last, hlast⟩ := exists_lastMention before after hmode
    rw [hid, hname]
    exact (modeName_eq_listedName_iff hmode hlast).mpr
      (h before modEntry after rfl customMode hmode hmapped last hlast)

end

/-! ## The maps of the game -/

theorem kyberMap_map {mode : Mode} {map : DartString} {m : KyberMap}
    (h : kyberMap mode map = .ok m) : m.map = map := by
  rw [kyberMap] at h
  split at h
  · next override hoverride =>
      obtain ⟨overrides, -, hfind⟩ := Option.bind_eq_some_iff.mp hoverride
      have hmap : override.map = map := by simpa using List.find?_some hfind
      split at h
      · cases hname : mapName map with
        | error e =>
            rw [hname] at h
            cases h
        | ok name =>
            rw [hname] at h
            cases h
            rfl
      · cases h
        exact hmap
  · cases hname : mapName map with
    | error e =>
        rw [hname] at h
        cases h
    | ok name =>
        rw [hname] at h
        cases h
        rfl

/-- Every map of a mode of the game has a name. -/
theorem modes_named :
    (modes.all fun mode => mode.maps.all fun map => (kyberMap mode map).isOk) = true := by
  decide +kernel

/-- The maps of a mode of the game are found in it. -/
theorem exists_getMap {name map : DartString} {mode : Mode}
    (hmode : (modes.find? fun e => e.mode == name) = some mode) (hmap : map ∈ mode.maps) :
    ∃ found, getMap name map = .ok (some found) := by
  have hall := List.all_eq_true.mp modes_named mode (List.mem_of_find?_eq_some hmode)
  have hnamed : ∀ x ∈ mode.maps, ∃ m, kyberMap mode x = .ok m := by
    intro x hx
    have hok := List.all_eq_true.mp hall x hx
    cases hm : kyberMap mode x with
    | error e =>
        rw [hm] at hok
        cases hok
    | ok m => exact ⟨m, rfl⟩
  obtain ⟨found, hfound⟩ := exists_mapM hnamed
  have hmaps : Launcher.getMapsForMode name = .ok found := by
    rw [Launcher.getMapsForMode, hmode]
    exact hfound
  obtain ⟨m, hkyber⟩ := hnamed map hmap
  have hm : m ∈ found := (mem_mapM_iff hfound).mpr ⟨map, hmap, hkyber⟩
  have hsome : (found.find? fun x => x.map == map).isSome := by
    rw [List.find?_isSome]
    exact ⟨m, hm, by simpa using kyberMap_map hkyber⟩
  obtain ⟨first, hfirst⟩ := Option.isSome_iff_exists.mp hsome
  refine ⟨first, ?_⟩
  rw [getMap, hmaps]
  exact congrArg Except.ok hfirst

/-! ## Agreement -/

section

variable (dirname : DartString → DartString) (join : DartString → DartString → DartString)
  (installed : Installed) (modEntries : DartString → Option ModEntry)
  (collection : ModCollectionMetaData)

/-- A mod of the collection declares the map, and the map supports the mode. -/
def Supports (map : KyberMap) (mode : DartString) : Prop :=
  ∃ entries, entriesOf dirname join installed modEntries collection = .ok entries ∧
    ∃ modEntry ∈ entries, ∃ customMap ∈ modEntry.maps,
      map.map = customMap.map ∧ map.name = customMap.name ∧ mode ∈ customMap.supportedModes

/-- A map is found for an entry of a rotation: in the mods for a custom one, else in the game. -/
def Resolves (entry : MapRotationEntry) : Prop :=
  (entry.isCustom = true → ∃ found,
    getMapByMode dirname join installed modEntries collection entry.map entry.mode =
      .ok (some found)) ∧
  (entry.isCustom = false → ∃ found, getMap entry.mode entry.map = .ok (some found))

/-- What is looked up in the mods of a collection agrees. The modes that can be added to a
rotation are those of the mods and those of the game. -/
structure Agreement : Prop where
  maps : ∀ mode, ∃ maps,
    getMapsForMode dirname join installed modEntries collection mode = .ok maps ∧
    ∀ m ∈ maps, ∃ supported, m.mode = some supported ∧
      Supports dirname join installed modEntries collection m supported ∧
      ∃ found, getMapByMode dirname join installed modEntries collection m.map supported =
        .ok (some found)
  addGameMode : ∀ mode : Mode, mode.isCustom = true ∨ mode.mode ∈ modes.map (·.mode) →
    ∀ state, ∃ added,
      addGameMode dirname join installed modEntries collection mode state =
        .ok { maps := state.maps ++ added } ∧
      ∀ entry ∈ added, Resolves dirname join installed modEntries collection entry
  names : ∀ includeDefaults, ∃ modeList,
    getModesForCollection dirname join installed modEntries collection includeDefaults =
      .ok modeList ∧
    ∀ m ∈ modeList, m.isCustom = true →
      getModeName dirname join installed modEntries collection m.mode = .ok (some m.name)

variable {dirname join installed modEntries collection} {entries : List ModEntry}

variable (dirname join installed modEntries collection) in
/-- The mods of a collection can always be read. -/
theorem exists_entriesOf :
    ∃ entries, entriesOf dirname join installed modEntries collection = .ok entries := by
  have hpaths : ∃ paths, getModPaths dirname join installed false collection = .ok paths := by
    by_cases hid : collection.localId = Join.noModsId
    · exact ⟨[], by rw [getModPaths, if_pos hid]; rfl⟩
    · exact ⟨_, Join.getModPaths_eq hid⟩
  obtain ⟨paths, hpaths⟩ := hpaths
  exact ⟨paths.filterMap modEntries, by rw [entriesOf, hpaths]; rfl⟩

section

variable (hentries : entriesOf dirname join installed modEntries collection = .ok entries)

include hentries

theorem getMapByMode_eq (map mode : DartString) :
    getMapByMode dirname join installed modEntries collection map mode =
      .ok (findMap entries map mode) := by
  rw [getMapByMode, hentries]
  rfl

theorem getMapsForMode_eq (mode : DartString) :
    getMapsForMode dirname join installed modEntries collection mode =
      .ok (mapsForMode entries mode) := by
  rw [getMapsForMode, hentries]
  rfl

theorem getModeName_eq (mode : DartString) :
    getModeName dirname join installed modEntries collection mode =
      .ok (modeName entries mode) := by
  rw [getModeName, hentries]
  rfl

theorem getModesForCollection_eq (includeDefaults : Bool) :
    getModesForCollection dirname join installed modEntries collection includeDefaults =
      .ok (modeList entries includeDefaults) := by
  rw [getModesForCollection, hentries]
  rfl

/-- Every map that is found for a mode is found again. -/
theorem found_again {mode : DartString} {m : KyberMap} (hm : m ∈ mapsForMode entries mode) :
    ∃ supported, m.mode = some supported ∧
      Supports dirname join installed modEntries collection m supported ∧
      ∃ found, getMapByMode dirname join installed modEntries collection m.map supported =
        .ok (some found) := by
  obtain ⟨modEntry, hentry, customMap, hmap, hid, hname, supported, hsupported, hmode⟩ :=
    exists_of_mem_mapsForMode hm
  obtain ⟨found, hfound⟩ := exists_findMap hentry hmap hsupported
  refine ⟨supported, hmode, ?_, found, ?_⟩
  · exact ⟨entries, hentries, modEntry, hentry, customMap, hmap, hid, hname, hsupported⟩
  · rw [getMapByMode_eq hentries, hid, hfound]

/-- The entries of a custom mode. -/
theorem exists_rotationEntries (mode : DartString) :
    ∃ added, (mapsForMode entries mode).mapM rotationEntry = .ok added ∧
      ∀ entry ∈ added, Resolves dirname join installed modEntries collection entry := by
  have hok : ∀ m ∈ mapsForMode entries mode, ∃ entry, rotationEntry m = .ok entry := by
    intro m hm
    obtain ⟨supported, hmode, -⟩ := found_again hentries hm
    rw [rotationEntry, hmode]
    exact ⟨_, rfl⟩
  obtain ⟨added, hadded⟩ := exists_mapM hok
  refine ⟨added, hadded, fun entry hentry => ?_⟩
  obtain ⟨m, hm, hrotation⟩ := (mem_mapM_iff hadded).mp hentry
  obtain ⟨supported, hmode, -, hfound⟩ := found_again hentries hm
  rw [rotationEntry, hmode] at hrotation
  cases hrotation
  refine ⟨fun _ => hfound, fun hcustom => ?_⟩
  cases hcustom

/-- A mode of the mods or of the game can be added, and what is added is found again. -/
theorem exists_addGameMode {mode : Mode} (state : MapRotationState)
    (h : mode.isCustom = true ∨ mode.mode ∈ modes.map (·.mode)) :
    ∃ added,
      addGameMode dirname join installed modEntries collection mode state =
        .ok { maps := state.maps ++ added } ∧
      ∀ entry ∈ added, Resolves dirname join installed modEntries collection entry := by
  obtain ⟨customMode, hcustomMode, hkind⟩ :
      ∃ customMode : Mode,
        ((modeList entries false).find? fun e => e.mode == mode.mode).getD mode = customMode ∧
        (customMode.isCustom = true ∨ customMode.mode ∈ modes.map (·.mode)) := by
    refine ⟨_, rfl, ?_⟩
    cases hfind : (modeList entries false).find? fun e => e.mode == mode.mode with
    | none => exact h
    | some found => exact .inl (isCustom_of_mem_modeList (List.mem_of_find?_eq_some hfind))
  by_cases hcustom : customMode.isCustom = true
  · obtain ⟨added, hadded, hresolves⟩ := exists_rotationEntries hentries customMode.mode
    refine ⟨added, ?_, hresolves⟩
    rw [addGameMode, getModesForCollection_eq hentries]
    dsimp only [Bind.bind, Except.bind]
    rw [hcustomMode, if_pos hcustom, getMapsForMode_eq hentries]
    dsimp only
    rw [hadded]
    rfl
  · obtain ⟨builtIn, hbuiltIn, hmode⟩ := List.mem_map.mp (hkind.resolve_left hcustom)
    have hsome : (modes.find? fun e => e.mode == customMode.mode).isSome := by
      rw [List.find?_isSome]
      exact ⟨builtIn, hbuiltIn, by simpa using hmode⟩
    obtain ⟨first, hfirst⟩ := Option.isSome_iff_exists.mp hsome
    refine ⟨first.maps.map fun map => { map, mode := customMode.mode }, ?_, ?_⟩
    · rw [addGameMode, getModesForCollection_eq hentries]
      dsimp only [Bind.bind, Except.bind]
      rw [hcustomMode, if_neg hcustom, hfirst]
      rfl
    · intro entry hentry
      obtain ⟨map, hmap, rfl⟩ := List.mem_map.mp hentry
      refine ⟨fun hcustom => ?_, fun _ => exists_getMap hfirst hmap⟩
      cases hcustom

end

/-- The maps of a collection are found again in every way that they are looked up. The names of
its modes agree exactly if the last mod that mentions a mode gives the name that is listed. -/
theorem agreement_iff (dirname : DartString → DartString)
    (join : DartString → DartString → DartString) (installed : Installed)
    (modEntries : DartString → Option ModEntry) (collection : ModCollectionMetaData) :
    Agreement dirname join installed modEntries collection ↔
      ∀ entries, entriesOf dirname join installed modEntries collection = .ok entries →
        NamedAlike entries := by
  refine ⟨fun h entries hentries => ?_, fun h => ?_⟩
  · refine (names_agree_iff false).mp fun m hm hcustom => ?_
    obtain ⟨listed, hlisted, hnames⟩ := h.names false
    rw [getModesForCollection_eq hentries] at hlisted
    cases hlisted
    have hname := hnames m hm hcustom
    rw [getModeName_eq hentries] at hname
    exact Except.ok.inj hname
  · obtain ⟨entries, hentries⟩ := exists_entriesOf dirname join installed modEntries collection
    refine ⟨fun mode => ?_, fun mode hmode state => ?_, fun includeDefaults => ?_⟩
    · exact ⟨_, getMapsForMode_eq hentries mode, fun m hm => found_again hentries hm⟩
    · exact exists_addGameMode hentries state hmode
    · refine ⟨_, getModesForCollection_eq hentries includeDefaults, fun m hm hcustom => ?_⟩
      rw [getModeName_eq hentries]
      exact congrArg Except.ok
        ((names_agree_iff includeDefaults).mpr (h entries hentries) m hm hcustom)

/-- A mod that declares the mode `M` as `D`, and gives it the name `O`. -/
def declaresAndRenames (_ : DartString) : Option ModEntry :=
  some
    { maps := []
      modes := [{ name := [0x44], mode := [0x4d], maxPlayers := 8 }]
      modeMappings := []
      mapNameOverrides := [([0x4d], [0x4f])] }

def collectionOfModA : ModCollectionMetaData where
  localId := [0x63]
  title := []
  mods := [Join.toCollectionMod Join.modA]

/-- The mode is listed as `O`, and found as `D`. -/
theorem not_agreement_declaresAndRenames :
    ¬ Agreement Join.here Join.joinPath Join.twoMods declaresAndRenames collectionOfModA := by
  intro h
  obtain ⟨listed, hlisted, hnames⟩ := h.names false
  cases hlisted
  exact absurd (hnames _ List.mem_cons_self rfl) (by decide)

end

end Kyber.Launcher.Levels
