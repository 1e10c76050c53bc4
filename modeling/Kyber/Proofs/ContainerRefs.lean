import Kyber.Proofs.LuaArrays
import Kyber.Script.LuaDataContainer
import Mathlib.Data.List.Perm.Basic

/-!
# References to containers

The count of a container should be the number of those that hold it. `Keeps` says when a step
leaves it so: what is read or finalised or overwritten must be a null pointer, since a read does
not count the userdata that it makes, and `release` takes nothing off.

Something of the purpose of the counts is left. As none of them goes down, what is held has one
that is not zero, until a count has come around to it.
-/

namespace Kyber.Script.Containers

open Kyber.Lib Kyber.Sdk

/-! ## Counts -/

/-- Each container is counted as often as it is held. -/
def Counts (counts : RefCounts) (held : UInt64 → Nat) : Prop :=
  ∀ c, c ≠ 0 → (counts c).toNat = held c

section

variable {counts : RefCounts} {held held' : UInt64 → Nat} {old new : UInt64}

theorem Counts.hold_iff (h : Counts counts held)
    (hheld : ∀ c, c ≠ 0 → held' c = held c + if new = c then 1 else 0) :
    Counts counts held' ↔ new = 0 := by
  constructor
  · intro h'
    by_contra hnew
    have hcount := h new hnew
    have hcount' := h' new hnew
    rw [hheld new hnew, if_pos rfl] at hcount'
    omega
  · intro hnew c hc
    rw [hheld c hc, if_neg (by rw [hnew]; exact Ne.symm hc), h c hc, Nat.add_zero]

theorem Counts.drop_iff (h : Counts counts held)
    (hheld : ∀ c, c ≠ 0 → held' c + (if old = c then 1 else 0) = held c) :
    Counts counts held' ↔ old = 0 := by
  constructor
  · intro h'
    by_contra hold
    have hcount := h old hold
    have hcount' := h' old hold
    rw [← hheld old hold, if_pos rfl] at hcount
    omega
  · intro hold c hc
    have hcount := h c hc
    rw [← hheld c hc, if_neg (by rw [hold]; exact Ne.symm hc)] at hcount
    exact hcount

theorem toNat_succ_iff (n : UInt32) : (n + 1).toNat = n.toNat + 1 ↔ n + 1 ≠ 0 := by
  have hlt := n.toNat_lt
  rw [Ne, ← UInt32.toNat_inj, UInt32.toNat_add]
  show (n.toNat + 1) % 2 ^ 32 = _ ↔ ¬ (n.toNat + 1) % 2 ^ 32 = 0
  omega

theorem succ_ne (n : UInt32) : (n + 1).toNat ≠ n.toNat := by
  have hlt := n.toNat_lt
  rw [UInt32.toNat_add]
  show (n.toNat + 1) % 2 ^ 32 ≠ _
  omega

/-- What holds `old` holds `new` instead, which is counted if it is not null. -/
theorem Counts.assign_iff (h : Counts counts held)
    (hheld : ∀ c, c ≠ 0 →
      held' c + (if old = c then 1 else 0) = held c + if new = c then 1 else 0) :
    Counts (if new ≠ 0 then addRef counts new else counts) held' ↔
      old = 0 ∧ (new = 0 ∨ counts new + 1 ≠ 0) := by
  by_cases hnew : new = 0
  · have hdrop : ∀ c, c ≠ 0 → held' c + (if old = c then 1 else 0) = held c := by
      intro c hc
      rw [hheld c hc, if_neg (by rw [hnew]; exact Ne.symm hc), Nat.add_zero]
    rw [if_neg (not_not_intro hnew), h.drop_iff hdrop]
    exact (and_iff_left (Or.inl hnew)).symm
  · rw [if_pos hnew, ← toNat_succ_iff]
    have hcount := h new hnew
    have hheld' := hheld new hnew
    rw [if_pos rfl] at hheld'
    constructor
    · intro h'
      have hcount' := h' new hnew
      rw [addRef, Function.update_self] at hcount'
      have hsucc := succ_ne (counts new)
      have hold : old = 0 := by
        by_contra hold
        by_cases hsame : old = new
        · rw [if_pos hsame] at hheld'
          omega
        · have holdCount := h old hold
          have holdCount' := h' old hold
          have holdHeld := hheld old hold
          rw [addRef, Function.update_of_ne hsame] at holdCount'
          rw [if_pos rfl, if_neg (Ne.symm hsame)] at holdHeld
          omega
      rw [if_neg (by rw [hold]; exact Ne.symm hnew)] at hheld'
      exact ⟨hold, Or.inr (by omega)⟩
    · intro hok c hc
      have hsucc := hok.2.resolve_left hnew
      have hheldc := hheld c hc
      rw [if_neg (by rw [hok.1]; exact Ne.symm hc)] at hheldc
      by_cases hsame : new = c
      · subst hsame
        rw [if_pos rfl] at hheldc
        rw [addRef, Function.update_self]
        omega
      · rw [if_neg hsame] at hheldc
        rw [addRef, Function.update_of_ne (Ne.symm hsame), h c hc]
        omega

end

/-! ## Steps -/

theorem count_set_add {l : List UInt64} {i : Nat} {old : UInt64} (h : l[i]? = some old)
    (new c : UInt64) :
    (l.set i new).count c + (if old = c then 1 else 0) =
      l.count c + if new = c then 1 else 0 := by
  obtain ⟨hi, rfl⟩ := List.getElem?_eq_some_iff.mp h
  rw [List.count_set hi]
  by_cases hold : l[i] = c
  · have hpos : 0 < l.count c := List.count_pos_iff.mpr (hold ▸ List.getElem_mem hi)
    simp only [hold, beq_self_eq_true, beq_iff_eq, if_true]
    omega
  · simp only [hold, beq_iff_eq, if_false]
    omega

theorem count_eraseIdx_add {l : List UInt64} {i : Nat} {old : UInt64} (h : l[i]? = some old)
    (c : UInt64) : (l.eraseIdx i).count c + (if old = c then 1 else 0) = l.count c := by
  obtain ⟨hi, rfl⟩ := List.getElem?_eq_some_iff.mp h
  have hperm := (List.getElem_cons_eraseIdx_perm hi).count_eq c
  rw [List.count_cons] at hperm
  simpa only [beq_iff_eq] using hperm

namespace Heap

variable {h h' : Heap}

/-- How many hold the container. -/
def holders (h : Heap) (c : UInt64) : Nat :=
  h.fields.count c + h.elements.count c + h.userdata.count c + h.engine c

/-- A field, an element or a userdata holds the container. -/
def Held (h : Heap) (c : UInt64) : Prop :=
  c ∈ h.fields ∨ c ∈ h.elements ∨ c ∈ h.userdata

/-- Each container is counted as often as it is held, and what is held is alive. -/
structure Alive (h : Heap) : Prop where
  count_eq : ∀ c, c ≠ 0 → (h.refCounts c).toNat = h.holders c
  count_ne_zero : ∀ c, c ≠ 0 → h.Held c → h.refCounts c ≠ 0

theorem alive_iff : h.Alive ↔ Counts h.refCounts h.holders := by
  refine ⟨fun ha => ha.count_eq, fun hc => ⟨hc, ?_⟩⟩
  intro c hne hmem hzero
  have hcount := hc c hne
  rw [hzero] at hcount
  have hcount : h.holders c = 0 := hcount.symm
  rw [holders] at hcount
  rcases hmem with hmem | hmem | hmem <;> have := List.count_pos_iff.mpr hmem <;> omega

/-- What is stored in place of `current` leaves the counts right. -/
def Stores (counts : RefCounts) (current : UInt64) (arg : LuaArg) : Prop :=
  match getDataContainer arg with
  | .error _ => True
  | .ok container => current = 0 ∧ (container = 0 ∨ counts container + 1 ≠ 0)

/-- The operations that leave the counts right. -/
def Keeps (h : Heap) : Operation → Prop
  | .readField i => h.fields[i]? = some 0
  | .readElement i => h.elements[i]? = some 0
  | .writeField i arg => ∀ current, h.fields[i]? = some current → Stores h.refCounts current arg
  | .writeElement i arg =>
      ∀ current, h.elements[i]? = some current → Stores h.refCounts current arg
  | .finalise i => h.userdata[i]? = some 0
  | .create _ _ => True

theorem wrap_iff (ha : h.Alive) (container : UInt64) :
    (h.wrapDataContainer container).Alive ↔ container = 0 := by
  have hcounts := alive_iff.mp ha
  rw [alive_iff]
  refine hcounts.hold_iff fun c _ => ?_
  show h.fields.count c + h.elements.count c + (container :: h.userdata).count c + h.engine c = _
  rw [List.count_cons, holders]
  simp only [beq_iff_eq]
  omega

theorem typeInfoIndex_iff (ha : h.Alive) {i : Nat} (hs : h.typeInfoIndex i = some h') :
    h'.Alive ↔ h.fields[i]? = some 0 := by
  obtain ⟨target, htarget, hs⟩ := Option.bind_eq_some_iff.mp hs
  cases hs
  rw [wrap_iff ha, htarget, Option.some.injEq]

theorem pushElement_iff (ha : h.Alive) {i : Nat} (hs : h.pushElement i = some h') :
    h'.Alive ↔ h.elements[i]? = some 0 := by
  obtain ⟨target, htarget, hs⟩ := Option.bind_eq_some_iff.mp hs
  rw [htarget, Option.some.injEq]
  by_cases hzero : target = 0
  · rw [if_pos hzero] at hs
    cases hs
    exact iff_of_true ha hzero
  · rw [if_neg hzero] at hs
    cases hs
    exact wrap_iff ha target

theorem release_eq (counts : RefCounts) (current : UInt64) :
    (if current ≠ 0 then release counts current else counts) = counts := by
  split <;> rfl

theorem assign_iff {counts : RefCounts} {held held' : UInt64 → Nat} (hcounts : Counts counts held)
    {slots : List UInt64} {i : Nat} {arg : LuaArg} {r : RefCounts × List UInt64}
    (hs : assign counts slots i arg = some r)
    (hheld : ∀ c, held' c + slots.count c = held c + r.2.count c) :
    Counts r.1 held' ↔ ∀ current, slots[i]? = some current → Stores counts current arg := by
  obtain ⟨current, hcurrent, hs⟩ := Option.bind_eq_some_iff.mp hs
  simp only [hcurrent, Option.some.injEq, forall_eq', Stores]
  rw [setReference, release_eq] at hs
  cases harg : getDataContainer arg with
  | error e =>
      rw [harg] at hs
      cases hs
      obtain rfl : held' = held := funext fun c => Nat.add_right_cancel (hheld c)
      exact iff_of_true hcounts trivial
  | ok container =>
      rw [harg] at hs
      cases hs
      refine hcounts.assign_iff fun c _ => ?_
      have hcount := count_set_add hcurrent container c
      have := hheld c
      dsimp only at this
      omega

theorem typeInfoNewIndex_iff (ha : h.Alive) {i : Nat} {arg : LuaArg}
    (hs : h.typeInfoNewIndex i arg = some h') : h'.Alive ↔ h.Keeps (.writeField i arg) := by
  obtain ⟨r, hr, hs⟩ := Option.map_eq_some_iff.mp hs
  cases hs
  rw [alive_iff]
  refine assign_iff (alive_iff.mp ha) hr fun c => ?_
  simp only [holders]
  omega

theorem newIndexElement_iff (ha : h.Alive) {i : Nat} {arg : LuaArg}
    (hs : h.newIndexElement i arg = some h') : h'.Alive ↔ h.Keeps (.writeElement i arg) := by
  obtain ⟨r, hr, hs⟩ := Option.map_eq_some_iff.mp hs
  cases hs
  rw [alive_iff]
  refine assign_iff (alive_iff.mp ha) hr fun c => ?_
  simp only [holders]
  omega

theorem dataContainerGc_iff (ha : h.Alive) {i : Nat} (hs : h.dataContainerGc i = some h') :
    h'.Alive ↔ h.userdata[i]? = some 0 := by
  obtain ⟨data, hdata, hs⟩ := Option.bind_eq_some_iff.mp hs
  rw [release_eq] at hs
  cases hs
  have hcounts := alive_iff.mp ha
  rw [hdata, Option.some.injEq, alive_iff]
  refine hcounts.drop_iff fun c _ => ?_
  have hcount := count_eraseIdx_add hdata c
  simp only [holders]
  omega

theorem dataContainerCreate_alive (ha : h.Alive) {container : UInt64} {fields : Nat}
    (hs : h.dataContainerCreate container fields = some h') : h'.Alive := by
  rw [dataContainerCreate] at hs
  split at hs
  · rename_i hnew
    obtain ⟨hne, hfields, helements, huserdata, hengine⟩ := hnew
    cases hs
    rw [alive_iff]
    intro c hc
    have hold : h.holders container = 0 := by
      rw [holders, List.count_eq_zero.mpr hfields, List.count_eq_zero.mpr helements,
        List.count_eq_zero.mpr huserdata, hengine]
    have hnull : (List.replicate fields (0 : UInt64)).count c = 0 := by
      rw [List.count_eq_zero]
      intro hmem
      exact hc (List.eq_of_mem_replicate hmem)
    show (Function.update h.refCounts container 1 c).toNat =
      (h.fields ++ List.replicate fields 0).count c + h.elements.count c +
        (container :: h.userdata).count c + h.engine c
    rw [List.count_append, hnull, List.count_cons]
    simp only [beq_iff_eq]
    by_cases hsame : container = c
    · subst hsame
      rw [holders] at hold
      rw [Function.update_self, if_pos rfl]
      show 1 = _
      omega
    · have hcount := ha.count_eq c hc
      rw [holders] at hcount
      rw [Function.update_of_ne (Ne.symm hsame), if_neg hsame]
      omega
  · cases hs

theorem step_iff (ha : h.Alive) {op : Operation} (hs : h.step op = some h') :
    h'.Alive ↔ h.Keeps op := by
  cases op with
  | readField i => exact typeInfoIndex_iff ha hs
  | readElement i => exact pushElement_iff ha hs
  | writeField i arg => exact typeInfoNewIndex_iff ha hs
  | writeElement i arg => exact newIndexElement_iff ha hs
  | finalise i => exact dataContainerGc_iff ha hs
  | create container fields => exact iff_of_true (dataContainerCreate_alive ha hs) trivial

/-- The counts are right all along a run exactly if it reads, overwrites and finalises nothing
but null pointers, and counts no container around. -/
theorem alive_iff_keeps (ha : h.Alive) (ops : List Operation) :
    (∀ x ∈ visits step h ops, x.Alive) ↔ ∀ m ∈ moves step h ops, m.1.Keeps m.2 :=
  forall_visits_iff_forall_moves step (fun _ => True) Keeps (fun _ _ => trivial)
    (fun _ ha hs => step_iff ha hs) trivial ha ops

/-- One container, in a field, and a field with none. -/
def oneField : Heap where
  refCounts := fun c => if c = 16 then 1 else 0
  fields := [16, 0]
  elements := []
  userdata := []
  engine := fun _ => 0

theorem oneField_alive : oneField.Alive := by
  refine alive_iff.mpr fun c hc => ?_
  show (if c = 16 then (1 : UInt32) else 0).toNat = List.count c [16, 0] + 0 + 0 + 0
  by_cases h16 : c = 16
  · subst h16
    decide
  · rw [if_neg h16, List.count_cons_of_ne (Ne.symm h16), List.count_cons_of_ne (Ne.symm hc)]
    rfl

theorem oneField_alive_iff :
    (∀ x ∈ visits step oneField [.readField 1, .create 32 1], x.Alive) ↔
      ∀ m ∈ moves step oneField [.readField 1, .create 32 1], m.1.Keeps m.2 :=
  alive_iff_keeps oneField_alive _

/-- The userdata that a field is read into is not counted. -/
theorem oneField_read :
    oneField.Alive ∧ ¬ ∀ x ∈ visits step oneField [.readField 0], x.Alive := by
  refine ⟨oneField_alive, fun h => ?_⟩
  have hread := h (oneField.wrapDataContainer 16) (List.mem_cons_of_mem _ List.mem_cons_self)
  have hcount := hread.count_eq 16 (by decide)
  exact absurd hcount (by decide)

/-! ## What is held is alive -/

/-- The count of what is stored does not come around to zero. -/
def Bounded (h : Heap) : Operation → Prop
  | .writeField _ arg | .writeElement _ arg =>
      ∀ container, getDataContainer arg = .ok container → h.refCounts container + 1 ≠ 0
  | _ => True

theorem assign_cases {counts : RefCounts} {slots : List UInt64} {i : Nat} {arg : LuaArg}
    {r : RefCounts × List UInt64} (hs : assign counts slots i arg = some r)
    (hbounded : ∀ container, getDataContainer arg = .ok container → counts container + 1 ≠ 0) :
    (∀ c, counts c ≠ 0 → r.1 c ≠ 0) ∧ ∀ c, c ∈ r.2 → c ≠ 0 → c ∈ slots ∨ r.1 c ≠ 0 := by
  obtain ⟨current, hcurrent, hs⟩ := Option.bind_eq_some_iff.mp hs
  rw [setReference, release_eq] at hs
  cases harg : getDataContainer arg with
  | error e =>
      rw [harg] at hs
      cases hs
      exact ⟨fun _ hc => hc, fun _ hmem _ => Or.inl hmem⟩
  | ok container =>
      rw [harg] at hs
      cases hs
      have hsucc := hbounded container harg
      constructor
      · intro c hc
        dsimp only
        split
        · by_cases hsame : c = container
          · rw [hsame, addRef, Function.update_self]
            exact hsucc
          · rw [addRef, Function.update_of_ne hsame]
            exact hc
        · exact hc
      · intro c hmem hc
        rcases List.mem_or_eq_of_mem_set hmem with hmem | rfl
        · exact Or.inl hmem
        · refine Or.inr ?_
          dsimp only
          rw [if_pos hc, addRef, Function.update_self]
          exact hsucc

theorem held_wrap {target c : UInt64} (hheld : (h.wrapDataContainer target).Held c) :
    c = target ∨ h.Held c := by
  rcases hheld with hmem | hmem | hmem
  · exact Or.inr (Or.inl hmem)
  · exact Or.inr (Or.inr (Or.inl hmem))
  · exact (List.mem_cons.mp hmem).imp_right fun hmem => Or.inr (Or.inr hmem)

theorem step_held {op : Operation} (hbounded : h.Bounded op) (hs : h.step op = some h')
    (halive : ∀ c, c ≠ 0 → h.Held c → h.refCounts c ≠ 0) :
    ∀ c, c ≠ 0 → h'.Held c → h'.refCounts c ≠ 0 := by
  intro c hc hheld
  cases op with
  | readField i =>
      obtain ⟨target, htarget, hs⟩ := Option.bind_eq_some_iff.mp hs
      cases hs
      rcases held_wrap hheld with rfl | hheld
      · exact halive c hc (Or.inl (List.mem_of_getElem? htarget))
      · exact halive c hc hheld
  | readElement i =>
      obtain ⟨target, htarget, hs⟩ := Option.bind_eq_some_iff.mp hs
      split at hs
      · cases hs
        exact halive c hc hheld
      · cases hs
        rcases held_wrap hheld with rfl | hheld
        · exact halive c hc (Or.inr (Or.inl (List.mem_of_getElem? htarget)))
        · exact halive c hc hheld
  | writeField i arg =>
      obtain ⟨r, hr, hs⟩ := Option.map_eq_some_iff.mp hs
      cases hs
      obtain ⟨hcounts, hslots⟩ := assign_cases hr hbounded
      rcases hheld with hmem | hmem | hmem
      · rcases hslots c hmem hc with hmem | hne
        · exact hcounts c (halive c hc (Or.inl hmem))
        · exact hne
      · exact hcounts c (halive c hc (Or.inr (Or.inl hmem)))
      · exact hcounts c (halive c hc (Or.inr (Or.inr hmem)))
  | writeElement i arg =>
      obtain ⟨r, hr, hs⟩ := Option.map_eq_some_iff.mp hs
      cases hs
      obtain ⟨hcounts, hslots⟩ := assign_cases hr hbounded
      rcases hheld with hmem | hmem | hmem
      · exact hcounts c (halive c hc (Or.inl hmem))
      · rcases hslots c hmem hc with hmem | hne
        · exact hcounts c (halive c hc (Or.inr (Or.inl hmem)))
        · exact hne
      · exact hcounts c (halive c hc (Or.inr (Or.inr hmem)))
  | finalise i =>
      obtain ⟨data, hdata, hs⟩ := Option.bind_eq_some_iff.mp hs
      rw [release_eq] at hs
      cases hs
      refine halive c hc ?_
      rcases hheld with hmem | hmem | hmem
      · exact Or.inl hmem
      · exact Or.inr (Or.inl hmem)
      · exact Or.inr (Or.inr (List.mem_of_mem_eraseIdx hmem))
  | create container fields =>
      rw [step, dataContainerCreate] at hs
      split at hs
      next =>
        cases hs
        by_cases hsame : c = container
        · rw [hsame]
          show Function.update h.refCounts container 1 container ≠ 0
          rw [Function.update_self]
          decide
        · show Function.update h.refCounts container 1 c ≠ 0
          rw [Function.update_of_ne hsame]
          refine halive c hc ?_
          rcases (held_wrap hheld).resolve_left hsame with hmem | hmem
          · rcases List.mem_append.mp hmem with hmem | hmem
            · exact Or.inl hmem
            · exact absurd (List.eq_of_mem_replicate hmem) hc
          · exact Or.inr hmem
      next => cases hs

/-- The counts never go down: what is held has one that is not zero, whatever is read,
overwritten and finalised. -/
theorem held_ne_zero (ha : h.Alive) (ops : List Operation)
    (hbounded : ∀ m ∈ moves step h ops, m.1.Bounded m.2) :
    ∀ x ∈ visits step h ops, ∀ c, c ≠ 0 → x.Held c → x.refCounts c ≠ 0 :=
  forall_visits_of_forall_moves (fun x : Heap => ∀ c, c ≠ 0 → x.Held c → x.refCounts c ≠ 0)
    Bounded (fun halive hbounded hs => step_held hbounded hs halive) ha.count_ne_zero ops hbounded

end Heap

/-! ## Elements of arrays -/

/-- The pointer that the bytes of an element are. -/
def pointer (e : List UInt8) : UInt64 := UInt64.ofNat (leNat e)

theorem pointer_leBytes (c : UInt64) : pointer (leBytes 8 c.toNat) = c := by
  rw [pointer, leNat_leBytes c.toNat_lt, UInt64.ofNat_toNat]

/-- What `FBArrayNewIndex` does to the memory of an array of containers is what it does here to
the pointers in it. -/
theorem fbArrayNewIndex_assign {type : TypeInfo} {s : State} {es : List (List UInt8)}
    (h : s.array.Holds 8 es) (hclass : type.basicType = .classType) {key : Int64} (arg : LuaArg)
    (hfits : Fits es.length key) (hkey : 1 ≤ key.toInt ∧ key.toInt ≤ es.length) :
    ∃ s' result es', fbArrayNewIndex type s key arg = some (s', result) ∧
      s'.array.Holds 8 es' ∧
      Heap.assign s.refCounts (es.map pointer) (key.toInt - 1).toNat arg =
        some (s'.refCounts, es'.map pointer) := by
  have htest := hfits.outOfRange_iff h.length_lt
  have hi : (key.toInt - 1).toNat < es.length := by omega
  have hindex := hfits.toNat_index h.length_lt hkey
  have hslot : (es.map pointer)[(key.toInt - 1).toNat]? =
      some (pointer es[(key.toInt - 1).toNat]) := by
    rw [List.getElem?_map, List.getElem?_eq_getElem hi, Option.map_some]
  have hcurrent : s.array.element (key - 1).toInt32.toUInt32 =
      some (pointer es[(key.toInt - 1).toNat]) := by
    rw [h.element (hindex ▸ hi)]
    simp only [hindex, pointer]
  simp only [fbArrayNewIndex, h.size, Option.bind_eq_bind, Option.bind_some]
  rw [if_neg (by rw [htest]; exact not_not_intro hkey)]
  simp only [hclass, hcurrent, Heap.assign, hslot, Option.bind_eq_bind, Option.bind_some]
  generalize setReference s.refCounts (pointer es[(key.toInt - 1).toNat]) arg = r
  obtain ⟨counts, result⟩ := r
  cases result with
  | error e => exact ⟨_, _, es, rfl, h, rfl⟩
  | ok container =>
      obtain ⟨array', hwrite, h'⟩ := h.write hi (length_leBytes 8 container.toNat)
      simp only [FBArray.setElement, hindex, hwrite, Option.bind_some]
      refine ⟨_, _, _, rfl, h', ?_⟩
      rw [List.map_set, pointer_leBytes]

end Kyber.Script.Containers
