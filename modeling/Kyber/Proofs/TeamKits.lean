import Kyber.Lib.Firsts
import Kyber.ModLoader.WSTeamData

/-!
# The lists of a team

A merge of kits replaces three arrays at once, from one list without duplicates, so they belong
together position by position. What could take them apart is another merge: the members of the
asset are pointers, and if two of them are to one object, what is put there last stays. A team
that has such members keeps its lists only where no kits are merged.

So the lists are said of the members whose objects are their own (`Separate`). The ten merges are
then ten replacements in `Members`, of which none undoes another.
-/

namespace Kyber.ModLoader

open Kyber.Lib

section

variable {π α : Type} (domain : Domain π α) (data : WSTeamDataMergeData)

/-! ## What is promised -/

/-- The kits of a kind that are loaded, without those that are there before. -/
def WSTeamDataMergeData.uniqueKits (slot : TeamSlot) : List TeamKitMergeData :=
  firsts id (data.kits slot)

def WSTeamDataMergeData.uniqueApKits (slot : TeamSlot) : List EbxImportReference :=
  firsts id (data.apKits slot)

/-- The lists of a kind of kits, after they were `before`. -/
structure SlotMerged (before after : WSTeamData α) (slot : TeamSlot) : Prop where
  kits : data.kits slot ≠ [] → after.kitLists.array (.players slot)
    = some ((data.uniqueKits slot).map fun kit => findDataContainer domain kit.kitRef)
  characters : data.kits slot ≠ [] → after.idCollections.array slot
    = some ((data.uniqueKits slot).map fun kit => ⟨kit.classIdentifier, kit.gpIdentifier⟩)
  classes : data.kits slot ≠ [] → after.classIdCollections.array slot
    = some (firsts id ((data.uniqueKits slot).map (·.classIdentifier)))
  kept : data.kits slot = [] →
    (after.kitLists.member (.players slot) = before.kitLists.member (.players slot) ∧
      after.kitLists.array (.players slot) = before.kitLists.array (.players slot)) ∧
    (after.idCollections.member slot = before.idCollections.member slot ∧
      after.idCollections.array slot = before.idCollections.array slot) ∧
    (after.classIdCollections.member slot = before.classIdCollections.member slot ∧
      after.classIdCollections.array slot = before.classIdCollections.array slot)
  autoPlayers : data.apKits slot ≠ [] → after.kitLists.array (.autoPlayers slot)
    = some ((data.uniqueApKits slot).map (findDataContainer domain))
  autoPlayersKept : data.apKits slot = [] →
    after.kitLists.member (.autoPlayers slot) = before.kitLists.member (.autoPlayers slot) ∧
      after.kitLists.array (.autoPlayers slot) = before.kitLists.array (.autoPlayers slot)

/-! ## When it is kept -/

/-- There is something to be merged into the list. -/
def WSTeamDataMergeData.Fills : KitListMember → Prop
  | .players slot => data.kits slot ≠ []
  | .autoPlayers slot => data.apKits slot ≠ []

/-- No member into whose object something is merged shares it with another. -/
structure Separate (teamData : WSTeamData α) : Prop where
  kitLists : ∀ f g, data.Fills f → f ≠ g → teamData.kitLists.Apart f g
  idCollections : ∀ f g, data.kits f ≠ [] → f ≠ g → teamData.idCollections.Apart f g
  classIdCollections : ∀ f g, data.kits f ≠ [] → f ≠ g → teamData.classIdCollections.Apart f g

/-! ## The ten replacements -/

theorem removeDuplicates_eq {β : Type} [DecidableEq β] (source : List β) :
    removeDuplicates source = firsts id source := by
  have h := foldl_concat_eq_firsts id source
  rw [List.map_id] at h
  rw [← h, removeDuplicates]
  simp only [List.any_beq', id]

/-- What is put into the kit lists for a kind of kits. -/
def kitWrites (slot : TeamSlot) : List (KitListMember × List (Option α)) :=
  (if data.kits slot = [] then []
    else [(.players slot, (data.uniqueKits slot).map fun kit => findDataContainer domain kit.kitRef)])
  ++ if data.apKits slot = [] then []
    else [(.autoPlayers slot, (data.uniqueApKits slot).map (findDataContainer domain))]

/-- What is put into other members that there are one of for each kind of kits. -/
def slotWrites {β : Type} (value : TeamSlot → List β) (slot : TeamSlot) :
    List (TeamSlot × List β) :=
  if data.kits slot = [] then [] else [(slot, value slot)]

/-- The characters of the kits of a kind. -/
def WSTeamDataMergeData.characters (slot : TeamSlot) : List CharacterIdData :=
  (data.uniqueKits slot).map fun kit => ⟨kit.classIdentifier, kit.gpIdentifier⟩

/-- Their classes. -/
def WSTeamDataMergeData.classes (slot : TeamSlot) : List UInt32 :=
  firsts id ((data.uniqueKits slot).map (·.classIdentifier))

theorem implementMerge_eq (slot : TeamSlot) (teamData : WSTeamData α) :
    implementMerge domain data slot teamData
      = if data.kits slot = [] then teamData
        else merge domain (data.uniqueKits slot) slot teamData := by
  rw [implementMerge, removeDuplicates_eq]
  exact if_congr List.isEmpty_iff rfl rfl

theorem implementMergeAP_eq (slot : TeamSlot) (teamData : WSTeamData α) :
    implementMergeAP domain data slot teamData
      = if data.apKits slot = [] then teamData
        else mergeAP domain (data.uniqueApKits slot) slot teamData := by
  rw [implementMergeAP, removeDuplicates_eq]
  exact if_congr List.isEmpty_iff rfl rfl

/-- The two merges of a kind of kits, on the objects. -/
theorem mergeSlot_eq (slot : TeamSlot) (teamData : WSTeamData α) :
    let after := implementMergeAP domain data slot (implementMerge domain data slot teamData)
    after.kitLists = teamData.kitLists.assignAll (kitWrites domain data slot) ∧
      after.idCollections = teamData.idCollections.assignAll (slotWrites data data.characters slot) ∧
      after.classIdCollections = teamData.classIdCollections.assignAll (slotWrites data data.classes slot) := by
  have hclasses := congrArg (teamData.classIdCollections.assign slot)
    (foldl_concat_eq_firsts TeamKitMergeData.classIdentifier (data.uniqueKits slot))
  rw [implementMergeAP_eq, implementMerge_eq, kitWrites, slotWrites, slotWrites]
  by_cases hkits : data.kits slot = [] <;> by_cases hap : data.apKits slot = []
  · simp only [if_pos hkits, if_pos hap]
    exact ⟨rfl, rfl, rfl⟩
  · simp only [if_pos hkits, if_neg hap]
    exact ⟨rfl, rfl, rfl⟩
  · simp only [if_neg hkits, if_pos hap]
    exact ⟨rfl, rfl, hclasses⟩
  · simp only [if_neg hkits, if_neg hap]
    exact ⟨rfl, rfl, hclasses⟩

theorem mergeSlots_eq (slots : List TeamSlot) (teamData : WSTeamData α) :
    (mergeSlots domain data slots teamData).kitLists
        = teamData.kitLists.assignAll (slots.flatMap (kitWrites domain data)) ∧
      (mergeSlots domain data slots teamData).idCollections
        = teamData.idCollections.assignAll (slots.flatMap (slotWrites data data.characters)) ∧
      (mergeSlots domain data slots teamData).classIdCollections
        = teamData.classIdCollections.assignAll (slots.flatMap (slotWrites data data.classes)) := by
  induction slots generalizing teamData with
  | nil => exact ⟨rfl, rfl, rfl⟩
  | cons slot slots ih =>
      obtain ⟨hkit, hid, hclass⟩ := mergeSlot_eq domain data slot teamData
      obtain ⟨hkits, hids, hclasses⟩ :=
        ih (implementMergeAP domain data slot (implementMerge domain data slot teamData))
      simp only [List.flatMap_cons, Members.assignAll_append]
      rw [← hkit, ← hid, ← hclass]
      exact ⟨hkits, hids, hclasses⟩

/-- The kinds of kits in the order of `Modify`. -/
def mergedSlots : List TeamSlot := [.soldiers, .specialSoldiers, .heroes, .vehicles, .heroVehicles]

theorem mem_mergedSlots (slot : TeamSlot) : slot ∈ mergedSlots := by
  cases slot <;> decide

theorem modify_eq (teamData : WSTeamData α) :
    (teamData.modify domain data).kitLists
        = teamData.kitLists.assignAll (mergedSlots.flatMap (kitWrites domain data)) ∧
      (teamData.modify domain data).idCollections
        = teamData.idCollections.assignAll (mergedSlots.flatMap (slotWrites data data.characters)) ∧
      (teamData.modify domain data).classIdCollections
        = teamData.classIdCollections.assignAll (mergedSlots.flatMap (slotWrites data data.classes)) := by
  rw [WSTeamData.modify]
  cases data.isAdded <;> cases data.allPlayerAbilities.isEmpty
  all_goals exact mergeSlots_eq domain data mergedSlots _

variable {data}

theorem mem_kitWrites {slots : List TeamSlot} {w : KitListMember × List (Option α)}
    (h : w ∈ slots.flatMap (kitWrites domain data)) : data.Fills w.1 := by
  obtain ⟨slot, -, hw⟩ := List.mem_flatMap.mp h
  rw [kitWrites, List.mem_append] at hw
  obtain hw | hw := hw
  · split at hw
    · cases hw
    · next hkits =>
        obtain rfl := List.mem_singleton.mp hw
        exact hkits
  · split at hw
    · cases hw
    · next hap =>
        obtain rfl := List.mem_singleton.mp hw
        exact hap

theorem nodup_kitWrites : ((mergedSlots.flatMap (kitWrites domain data)).map Prod.fst).Nodup := by
  have hsub : ∀ slots : List TeamSlot,
      ((slots.flatMap (kitWrites domain data)).map Prod.fst).Sublist
        (slots.flatMap fun slot => [.players slot, .autoPlayers slot]) := by
    intro slots
    induction slots with
    | nil => exact .slnil
    | cons slot slots ih =>
        rw [List.flatMap_cons, List.flatMap_cons, List.map_append]
        refine List.Sublist.append ?_ ih
        rw [kitWrites, List.map_append]
        show List.Sublist _ ([KitListMember.players slot] ++ [KitListMember.autoPlayers slot])
        refine List.Sublist.append ?_ ?_
        · split <;> simp
        · split <;> simp
  exact List.Nodup.sublist (hsub mergedSlots) (by decide)

theorem mem_slotWrites {β : Type} {value : TeamSlot → List β} {slots : List TeamSlot}
    {w : TeamSlot × List β} (h : w ∈ slots.flatMap (slotWrites data value)) :
    data.kits w.1 ≠ [] := by
  obtain ⟨slot, -, hw⟩ := List.mem_flatMap.mp h
  rw [slotWrites] at hw
  split at hw
  · cases hw
  · next hkits =>
      obtain rfl := List.mem_singleton.mp hw
      exact hkits

theorem nodup_slotWrites {β : Type} (value : TeamSlot → List β) :
    ((mergedSlots.flatMap (slotWrites data value)).map Prod.fst).Nodup := by
  have hsub : ∀ slots : List TeamSlot,
      ((slots.flatMap (slotWrites data value)).map Prod.fst).Sublist slots := by
    intro slots
    induction slots with
    | nil => exact .slnil
    | cons slot slots ih =>
        rw [List.flatMap_cons, List.map_append]
        show List.Sublist _ ([slot] ++ slots)
        refine List.Sublist.append ?_ ih
        rw [slotWrites]
        split <;> simp
  exact List.Nodup.sublist (hsub mergedSlots) (by decide)

/-- What is replaced in the members of one kind of object, and what stays. -/
theorem slotWrites_spec {β : Type} (value : TeamSlot → List β) {m : Members TeamSlot β}
    (h : ∀ f g, data.kits f ≠ [] → f ≠ g → m.Apart f g) (slot : TeamSlot) :
    (data.kits slot ≠ [] →
      (m.assignAll (mergedSlots.flatMap (slotWrites data value))).array slot
        = some (value slot)) ∧
    (data.kits slot = [] →
      (m.assignAll (mergedSlots.flatMap (slotWrites data value))).member slot = m.member slot ∧
        (m.assignAll (mergedSlots.flatMap (slotWrites data value))).array slot
          = m.array slot) := by
  constructor
  · intro hkits
    have hw : (slot, value slot) ∈ mergedSlots.flatMap (slotWrites data value) := by
      refine List.mem_flatMap.mpr ⟨slot, mem_mergedSlots slot, ?_⟩
      rw [slotWrites, if_neg hkits]
      exact List.mem_singleton_self _
    exact Members.array_assignAll_of_mem (nodup_slotWrites value)
      (fun w hw g => h w.1 g (mem_slotWrites hw)) hw
  · intro hkits
    have hne : ∀ w ∈ mergedSlots.flatMap (slotWrites data value), w.1 ≠ slot := by
      rintro w hw rfl
      exact mem_slotWrites hw hkits
    refine Members.array_assignAll_of_notMem ?_
      fun w hw => h w.1 slot (mem_slotWrites hw) (hne w hw)
    intro hmem
    obtain ⟨w, hw, hslot⟩ := List.mem_map.mp hmem
    exact hne w hw hslot

variable {domain}

/-- What stays in the kit lists. -/
theorem kitWrites_kept {m : Members KitListMember (Option α)}
    (h : ∀ f g, data.Fills f → f ≠ g → m.Apart f g) {g : KitListMember} (hg : ¬ data.Fills g) :
    (m.assignAll (mergedSlots.flatMap (kitWrites domain data))).member g = m.member g ∧
      (m.assignAll (mergedSlots.flatMap (kitWrites domain data))).array g = m.array g := by
  have hne : ∀ w ∈ mergedSlots.flatMap (kitWrites domain data), w.1 ≠ g := by
    rintro w hw rfl
    exact hg (mem_kitWrites domain hw)
  refine Members.array_assignAll_of_notMem ?_
    fun w hw => h w.1 g (mem_kitWrites domain hw) (hne w hw)
  intro hmem
  obtain ⟨w, hw, rfl⟩ := List.mem_map.mp hmem
  exact hne w hw rfl

/-- What is replaced in the kit lists. -/
theorem kitWrites_replaced {m : Members KitListMember (Option α)}
    (h : ∀ f g, data.Fills f → f ≠ g → m.Apart f g) {slot : TeamSlot}
    {w : KitListMember × List (Option α)} (hw : w ∈ kitWrites domain data slot) :
    (m.assignAll (mergedSlots.flatMap (kitWrites domain data))).array w.1 = some w.2 :=
  Members.array_assignAll_of_mem (nodup_kitWrites domain)
    (fun w hw g => h w.1 g (mem_kitWrites domain hw))
    (List.mem_flatMap.mpr ⟨slot, mem_mergedSlots slot, hw⟩)

/-- Every kind of kits is merged, if the members it is merged into are separate. -/
theorem modify_slotMerged {teamData : WSTeamData α} (h : Separate data teamData)
    (slot : TeamSlot) : SlotMerged domain data teamData (teamData.modify domain data) slot := by
  obtain ⟨hkit, hid, hclass⟩ := modify_eq domain data teamData
  obtain ⟨hids, hidsKept⟩ := slotWrites_spec data.characters h.idCollections slot
  obtain ⟨hclasses, hclassesKept⟩ := slotWrites_spec data.classes h.classIdCollections slot
  refine ⟨fun hkits => ?_, ?_, ?_, fun hkits => ⟨?_, ?_, ?_⟩, fun hap => ?_, fun hap => ?_⟩
  · have hw : (.players slot, (data.uniqueKits slot).map fun kit =>
        findDataContainer domain kit.kitRef) ∈ kitWrites domain data slot := by
      rw [kitWrites, if_neg hkits]
      exact List.mem_append_left _ (List.mem_singleton_self _)
    rw [hkit]
    exact kitWrites_replaced h.kitLists hw
  · rw [hid]
    exact hids
  · rw [hclass]
    exact hclasses
  · rw [hkit]
    exact kitWrites_kept h.kitLists (not_not_intro hkits)
  · rw [hid]
    exact hidsKept hkits
  · rw [hclass]
    exact hclassesKept hkits
  · have hw : (.autoPlayers slot, (data.uniqueApKits slot).map (findDataContainer domain))
        ∈ kitWrites domain data slot := by
      rw [kitWrites, if_neg hap]
      exact List.mem_append_right _ (List.mem_singleton_self _)
    rw [hkit]
    exact kitWrites_replaced h.kitLists hw
  · rw [hkit]
    exact kitWrites_kept h.kitLists (not_not_intro hap)

end

/-- A domain whose instances are told by the first bytes of their guids. -/
def sampleDomain : Domain Unit UInt8 where
  findPartition _ := some ()
  loadedPartitions _ := none
  findInstance _ guid := some (guid.toList.headD 0)

def sampleReference (b : UInt8) : EbxImportReference :=
  ⟨Vector.replicate 16 1, Vector.replicate 16 b⟩

/-- Kits of two classes for soldiers, one of which is there twice, one for heroes, and one for the
soldiers of the game, which is there twice as well. -/
def sampleKits : WSTeamDataMergeData where
  kits slot :=
    if slot = .soldiers then
      [⟨sampleReference 7, 1, 2⟩, ⟨sampleReference 9, 3, 4⟩, ⟨sampleReference 7, 1, 2⟩,
        ⟨sampleReference 10, 1, 5⟩]
    else if slot = .heroes then [⟨sampleReference 11, 6, 7⟩]
    else []
  apKits slot := if slot = .soldiers then [sampleReference 8, sampleReference 8] else []

/-- A team with two kit lists, which are one object or two. -/
def sampleTeam (autoPlayers : Fin 2) : WSTeamData UInt8 where
  wsFaction := none
  wsPlanetId := 0
  kitLists :=
    { member := fun f =>
        if f = .players .soldiers then some 0
        else if f = .autoPlayers .soldiers then some autoPlayers.val
        else none
      objects := [[], []]
      valid := by
        intro f p hp
        have hlt := autoPlayers.isLt
        split at hp
        · cases hp
          decide
        · split at hp <;> cases hp
          exact hlt }
  idCollections :=
    { member := fun slot => if slot = .soldiers then some 0 else none
      objects := [[⟨8, 8⟩]]
      valid := by
        intro slot p hp
        split at hp <;> cases hp
        decide }
  classIdCollections := { member := fun _ => none, objects := [], valid := by simp }
  allPlayerAbilities := []

/-- Two objects, and both lists are merged. -/
theorem modify_sample : SlotMerged sampleDomain sampleKits (sampleTeam 1)
    ((sampleTeam 1).modify sampleDomain sampleKits) .soldiers := by
  refine modify_slotMerged ⟨?_, ?_, fun _ _ _ _ => .inl rfl⟩ .soldiers
  · rintro (slot | slot) (slot' | slot') - hne <;> cases slot <;> cases slot'
    all_goals first
      | exact absurd rfl hne
      | exact .inl rfl
      | exact .inr (by decide)
  · intro slot slot' _ hne
    cases slot <;> cases slot'
    all_goals first
      | exact absurd rfl hne
      | exact .inl rfl
      | exact .inr (by decide)

/-- One object, and the list of the game's soldiers is where the other was put. -/
theorem shared_list_overwritten : ¬ SlotMerged sampleDomain sampleKits (sampleTeam 0)
    ((sampleTeam 0).modify sampleDomain sampleKits) .soldiers := by
  intro h
  have hkits := h.kits (by decide)
  exact absurd hkits (by decide)

end Kyber.ModLoader
