import Kyber.Proofs.Aggregation
import Kyber.Proofs.MergePaths

/-!
# Whose handlers `RunHandler` uses

An asset is deferred for one resource of it, the one that stage 4 of `FinalizeModLoads`
remembers: that one has data, and the hook has looked its handler up. `RunHandler` then goes
through the resources of the asset from all mods, and looks nothing up before it uses it.

`handledResources_eq_ok_iff` says when its first loop gets through: every resource of the asset
that names a handler names one that there is, of whatever stage. What it passes to `Load` are
those of its stage, and each handler has one of the two stages, so between them the two calls
reach every resource of the asset.
-/

namespace Kyber.ModLoader

open Kyber.Lib

/-! ## What is remembered -/

/-- A resource that stage 4 considers. -/
def ModResource.handles (r : ModResource) : Bool :=
  r.type == .ebx && r.data.buffer.isSome && r.handlerHash != 0

/-- What stage 4 keeps of it. -/
def ModResource.handled (r : ModResource) : KyberHandledModResource :=
  { handlerHash := r.handlerHash, dupedWithHandler := r.dupedWithHandler }

/-- The resource remembered for a name: the first of its id, and of several of one name the
last. -/
def remembered (rs : List ModResource) (name : ByteString) : Option ModResource :=
  (firsts (·.uniqueIdWithType) (rs.filter (·.handles))).reverse.find? (·.name == name)

theorem collectHandlers_get (rs : List ModResource) (visited : Std.TreeSet UInt32)
    (handlers : Std.TreeMap ByteString KyberHandledModResource) (name : ByteString) :
    (collectHandlers rs visited handlers)[name]? =
      ((((firsts (·.uniqueIdWithType) (rs.filter (·.handles))).filter
        fun r => ¬ r.uniqueIdWithType ∈ visited).reverse.find? (·.name == name)).map
          ModResource.handled).or handlers[name]? := by
  induction rs generalizing visited handlers with
  | nil => rfl
  | cons r rs ih =>
      rw [collectHandlers]
      by_cases hr : r.handles = true
      · have hr' : r.type = .ebx ∧ r.data.buffer.isSome = true ∧ r.handlerHash ≠ 0 := by
          simpa [ModResource.handles, and_assoc] using hr
        rw [List.filter_cons_of_pos (by exact hr), firsts]
        by_cases hseen : r.uniqueIdWithType ∈ visited
        · rw [if_neg (by simp [hseen]), ih, List.filter_cons_of_neg (by simpa using hseen),
            List.filter_filter]
          congr 4
          refine List.filter_congr fun r' _ => ?_
          by_cases hid : r'.uniqueIdWithType = r.uniqueIdWithType
          · simp [hid, hseen]
          · simp [hid]
        · have hnew : (!visited.contains r.uniqueIdWithType) = true := by
            rwa [Bool.not_eq_true', ← Bool.not_eq_true, ← Std.TreeSet.mem_iff_contains]
          rw [if_pos ⟨hr'.1, hr'.2.1, hr'.2.2, hnew⟩, ih,
            List.filter_cons_of_pos (by simpa using hseen), List.filter_filter,
            List.reverse_cons, List.find?_append, Option.map_or, Option.or_assoc]
          congr 1
          · congr 3
            refine List.filter_congr fun r' _ => ?_
            rw [← Bool.decide_and, decide_eq_decide, mem_insert_iff, not_or, and_comm]
          · rw [getElem?_insert_eq]
            by_cases hname : name = r.name
            · simp [hname, ModResource.handled]
            · simp [hname, Ne.symm hname]
      · have hskip : ¬ (r.type = .ebx ∧ r.data.buffer.isSome = true ∧ r.handlerHash ≠ 0 ∧
            (!visited.contains r.uniqueIdWithType) = true) := by
          simp only [ModResource.handles, Bool.and_eq_true, beq_iff_eq, bne_iff_ne] at hr
          exact fun h => hr ⟨⟨h.1, h.2.1⟩, h.2.2.1⟩
        rw [if_neg hskip, ih, List.filter_cons_of_neg hr]

theorem handlerResources_get (mods : List KyberMod) (name : ByteString) :
    (finalizeModLoads mods).handlerResources[name]?
      = (remembered (byPriority mods) name).map ModResource.handled := by
  have hnone : ({} : Std.TreeMap ByteString KyberHandledModResource)[name]? = none := rfl
  have hfilter : (finalizeModLoads mods).modResources.filter (·.handles)
      = (byPriority mods).filter (·.handles) :=
    filter_modResources_handled mods .ebx fun r hr => by
      simp only [ModResource.handles, Bool.and_eq_true, beq_iff_eq, bne_iff_ne] at hr
      exact ⟨hr.1.1, hr.2⟩
  refine (collectHandlers_get (finalizeModLoads mods).modResources {} {} name).trans ?_
  rw [hnone, Option.or_none, hfilter, remembered, List.filter_eq_self.mpr]
  exact fun r _ => by simp

/-! ## Runs -/

section

variable {δ : Type} (handlers : UInt32 → Option (CustomAssetHandler δ)) (name : ByteString)
  (stage : LoadStage)

/-- `RunHandler` uses handlers that there are, and what it passes to `Load` has data. -/
def SafeRun (modResources : List ModResource) : Prop :=
  ∃ resources, handledResources handlers name stage modResources = .ok resources ∧
    ∀ r ∈ resources, (handlers r.handler).isSome ∧ r.data.buffer.isSome

variable {handlers name stage}

/-- A resource gets to `Load` if it has data. -/
theorem loadResource_ok_iff
    (hload : ∀ hash handler, handlers hash = some handler → ∀ data s, ∃ result,
      handler.load data s = .ok result)
    {handlerData : Std.TreeMap UInt32 δ} {r : ModResource} (hhandler : (handlers r.handler).isSome)
    (hdata : handlerData[r.handler]?.isSome) :
    (∃ handlerData', loadResource handlers handlerData r = .ok handlerData') ↔
      r.data.buffer.isSome := by
  obtain ⟨handler, hhandler⟩ := Option.isSome_iff_exists.mp hhandler
  obtain ⟨data, hdata⟩ := Option.isSome_iff_exists.mp hdata
  rw [loadResource, ModResourceData.toByteBuffer]
  cases r.data.buffer with
  | none =>
      refine iff_of_false ?_ Bool.false_ne_true
      rintro ⟨handlerData', h⟩
      cases h
  | some buffer =>
      refine iff_of_true ?_ rfl
      obtain ⟨typeName, s, hname⟩ : ∃ typeName s, getNullTerminatedString
          (.ofBytes (buffer.take r.data.size.toUInt32.toNat)) = .ok (typeName, s) := ⟨_, _, rfl⟩
      obtain ⟨⟨data', s'⟩, hloaded⟩ := hload r.handler handler hhandler data s
      refine ⟨handlerData.insert r.handler data', ?_⟩
      simp only [hhandler, hdata, StateT.run, pure_bind, hname, except_ok_bind, hloaded]
      rfl

theorem loadResource_isSome {handlerData handlerData' : Std.TreeMap UInt32 δ} {r : ModResource}
    (h : loadResource handlers handlerData r = .ok handlerData') (hash : UInt32)
    (hdata : handlerData[hash]?.isSome) : handlerData'[hash]?.isSome := by
  obtain ⟨s, -, h⟩ := bind_eq_ok h
  split at h
  next =>
    obtain ⟨_, -, h⟩ := bind_eq_ok h
    obtain ⟨_, -, h⟩ := bind_eq_ok h
    cases h
    rw [getElem?_insert_eq]
    split
    · rfl
    · exact hdata
  next => cases h

/-- With handlers whose `Load` returns, a run is safe exactly if it gets through. -/
theorem safeRun_iff_runHandler
    (hload : ∀ hash handler, handlers hash = some handler → ∀ data s, ∃ result,
      handler.load data s = .ok result)
    (modResources : List ModResource) : SafeRun handlers name stage modResources ↔
      ∃ handlerData, runHandler handlers modResources name stage = .ok handlerData := by
  have hregistered : ∀ {resources}, handledResources handlers name stage modResources
      = .ok resources → ∀ r ∈ resources, (handlers r.handler).isSome := by
    intro resources h r hr
    obtain ⟨hall, rfl⟩ := (handledResources_eq_ok_iff handlers name stage).mp h
    obtain ⟨hmem, hmerges⟩ := List.mem_filter.mp hr
    exact hall r hmem (Bool.and_eq_true_iff.mp hmerges).1
  have hloads : ∀ {resources}, handledResources handlers name stage modResources
      = .ok resources → ((∃ handlerData, resources.reverse.foldlM (loadResource handlers)
        (createData handlers resources) = .ok handlerData) ↔
          ∀ r ∈ resources.reverse, r.data.buffer.isSome) := by
    intro resources h
    have hreg := hregistered h
    refine foldlM_ok_iff (fun handlerData => ∀ r ∈ resources, handlerData[r.handler]?.isSome)
      (fun handlerData hinv r hr => ?_) (fun handlerData r handlerData' hinv hr hstep => ?_) ?_
    · have hr := List.mem_reverse.mp hr
      exact loadResource_ok_iff hload (hreg r hr) (hinv r hr)
    · exact fun r' hr' => loadResource_isSome hstep _ (hinv r' hr')
    · intro r hr
      rw [createData_get, if_pos (List.mem_map_of_mem hr), Option.isSome_map]
      exact hreg r hr
  constructor
  · rintro ⟨resources, hresources, hsafe⟩
    obtain ⟨handlerData, hrun⟩ := (hloads hresources).mpr fun r hr =>
      (hsafe r (List.mem_reverse.mp hr)).2
    exact ⟨handlerData, by rw [runHandler, hresources]; exact hrun⟩
  · rintro ⟨handlerData, hrun⟩
    obtain ⟨resources, hresources, hrun⟩ := bind_eq_ok hrun
    have hbuffers := (hloads hresources).mp ⟨handlerData, hrun⟩
    exact ⟨resources, hresources, fun r hr =>
      ⟨hregistered hresources r hr, hbuffers r (List.mem_reverse.mpr hr)⟩⟩

/-- Between them the two stages reach every resource of the asset. -/
theorem safeRun_iff {modResources : List ModResource} :
    (∀ stage, SafeRun handlers name stage modResources) ↔ ∀ r ∈ modResources, r.merges name →
      (handlers r.handler).isSome ∧ r.data.buffer.isSome := by
  constructor
  · intro h r hr hmerges
    obtain ⟨resources, hresources, -⟩ := h .referencesResolved
    have hhandler := ((handledResources_eq_ok_iff _ _ _).mp hresources).1 r hr hmerges
    refine ⟨hhandler, ?_⟩
    obtain ⟨handler, hfound⟩ := Option.isSome_iff_exists.mp hhandler
    obtain ⟨resources, hresources, hsafe⟩ := h handler.loadStage
    obtain ⟨-, rfl⟩ := (handledResources_eq_ok_iff _ _ _).mp hresources
    refine (hsafe r (List.mem_filter.mpr ⟨hr, ?_⟩)).2
    rw [hmerges, Bool.true_and, ModResource.isAt, hfound]
    exact decide_eq_true rfl
  · intro h stage
    refine ⟨_, (handledResources_eq_ok_iff _ _ _).mpr ⟨fun r hr hmerges => (h r hr hmerges).1, rfl⟩,
      fun r hr => ?_⟩
    obtain ⟨hmem, hmerges⟩ := List.mem_filter.mp hr
    exact h r hmem (Bool.and_eq_true_iff.mp hmerges).1

/-! ## Deferred assets -/

/-- The resource that is remembered for the asset has a handler that there is. -/
def Defers (handlers : UInt32 → Option (CustomAssetHandler δ)) (mods : List KyberMod)
    (name : ByteString) : Prop :=
  ∃ r, remembered (byPriority mods) name = some r ∧ (handlers r.handler).isSome

theorem isSome_deferredResource {mods : List KyberMod} :
    (deferredResource handlers (finalizeModLoads mods) name).isSome ↔
      Defers handlers mods name := by
  rw [deferredResource, handlerResources_get, Defers]
  cases remembered (byPriority mods) name with
  | none => simp
  | some r =>
      simp only [Option.map_some, ModResource.handled, Option.some.injEq, exists_eq_left',
        ModResource.handler]
      cases handlers r.handlerHash.toUInt32 <;> simp

/-- The resources with handlers are those of the mods. -/
theorem mem_modResources_merges {mods : List KyberMod} {r : ModResource}
    (hmerges : r.merges name = true) :
    r ∈ (finalizeModLoads mods).modResources ↔ ∃ m ∈ mods, r ∈ m.resources := by
  have h := filter_modResources mods .ebx name
  have hmem : r ∈ (finalizeModLoads mods).modResources.filter (·.merges name) ↔
      r ∈ (byPriority mods).filter (·.merges name) :=
    iff_of_eq (congrArg (r ∈ ·) h)
  rw [List.mem_filter, List.mem_filter] at hmem
  rw [← mem_byPriority]
  exact ⟨fun hr => (hmem.mp ⟨hr, hmerges⟩).1, fun hr => (hmem.mpr ⟨hr, hmerges⟩).1⟩

variable (handlers) in
/-- For all deferred assets `RunHandler` uses only handlers that there are and data that there
are, exactly if that is all that the mods have for these assets. -/
theorem handlerLookup_iff (mods : List KyberMod) :
    (∀ name, (deferredResource handlers (finalizeModLoads mods) name).isSome →
        ∀ stage, SafeRun handlers name stage (finalizeModLoads mods).modResources) ↔
      ∀ name, Defers handlers mods name → ∀ m ∈ mods, ∀ r ∈ m.resources,
        r.type = .ebx → r.name = name → r.handlerHash ≠ 0 →
          (handlers r.handler).isSome ∧ r.data.buffer.isSome := by
  refine forall_congr' fun name => ?_
  rw [isSome_deferredResource, safeRun_iff]
  refine imp_congr_right fun _ => ?_
  have hmerges : ∀ r : ModResource, r.merges name = true ↔
      r.type = .ebx ∧ r.name = name ∧ r.handlerHash ≠ 0 := fun r => by
    simp [ModResource.merges, and_assoc]
  constructor
  · intro h m hm r hr htype hname hhash
    have hr' := (hmerges r).mpr ⟨htype, hname, hhash⟩
    exact h r ((mem_modResources_merges hr').mpr ⟨m, hm, hr⟩) hr'
  · intro h r hr hr'
    obtain ⟨m, hm, hr⟩ := (mem_modResources_merges hr').mp hr
    obtain ⟨htype, hname, hhash⟩ := (hmerges r).mp hr'
    exact h m hm r hr htype hname hhash

end

/-! ## Other mods of a deferred asset -/

/-- One handler, with the hash 7. -/
def oneHandler (hash : UInt32) : Option (CustomAssetHandler Unit) :=
  if hash = 7 then some { loadStage := .postLoad, create := (), load := fun data => return data }
  else none

/-- An ebx `a` with a handler. -/
def handledEbx (handlerHash : Int32) (buffer : Option (List UInt8)) : ModResource :=
  let r := ebxResource [0x61] (idWithType .ebx [0x61]) [1] (if buffer.isSome then 0 else -1) 1
  { r with handlerHash, data := { r.data with buffer } }

/-- The last mod has data for the handler, and the first has another resource of the asset. -/
def modsWith (other : ModResource) : List KyberMod :=
  [{ resources := [other] }, { resources := [handledEbx 7 (some [0])] }]

theorem not_safeRun_modsWith {other : ModResource} (hmerges : other.merges [0x61] = true)
    (hname : ¬ ((oneHandler other.handler).isSome ∧ other.data.buffer.isSome)) :
    ¬ ∀ stage, SafeRun oneHandler [0x61] stage (finalizeModLoads (modsWith other)).modResources :=
  fun h => hname (safeRun_iff.mp h other ((mem_modResources_merges hmerges).mpr
    ⟨{ resources := [other] }, List.mem_cons_self, List.mem_singleton.mpr rfl⟩) hmerges)

/-- The other resource names a handler that there is not, or has no data. -/
theorem other_mods_break_lookup :
    let unregistered := handledEbx 8 (some [0])
    let empty := handledEbx 7 none
    ((deferredResource oneHandler (finalizeModLoads (modsWith unregistered)) [0x61]).isSome ∧
      ¬ ∀ stage, SafeRun oneHandler [0x61] stage
        (finalizeModLoads (modsWith unregistered)).modResources) ∧
    (deferredResource oneHandler (finalizeModLoads (modsWith empty)) [0x61]).isSome ∧
      ¬ ∀ stage, SafeRun oneHandler [0x61] stage
        (finalizeModLoads (modsWith empty)).modResources := by
  refine ⟨⟨?_, not_safeRun_modsWith (by decide) (by decide)⟩, ?_,
    not_safeRun_modsWith (by decide) (by decide)⟩
  · exact isSome_deferredResource.mpr ⟨handledEbx 7 (some [0]), by decide, rfl⟩
  · exact isSome_deferredResource.mpr ⟨handledEbx 7 (some [0]), by decide, rfl⟩

end Kyber.ModLoader
