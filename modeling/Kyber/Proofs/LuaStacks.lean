import Kyber.Script.LuaEntityManager
import Kyber.Lib.Runs

/-!
# Stacks of plugins

A call of a plugin should hand the plugin what the function is for, and leave the
states of all other plugins alone. The functions for entities make their wrappers in
the state of the plugin that was loaded last, and read their entity there. So the call
is right for that plugin, unless the function says that it returns a value where it has
pushed none or uses a null pointer; for another plugin it is right as long as nothing is
wrapped and what is read in the other state happens to give the same.
-/

namespace Kyber.Script.Stacks

open Kyber.Lib

/-! ## What a plugin is handed -/

/-- What a plugin sees of a value. -/
inductive Seen
  | plain (value : Value)
  | userdata (words : List UInt64) (metatable : Option String)
  | list (elements : List (Option (List UInt64 × Option String)))
  deriving DecidableEq, Repr

/-- The words and the metatable of a userdata. -/
def LuaState.wrapped (s : LuaState) : Value → Option (List UInt64 × Option String)
  | .object id =>
      match s.objects[id]? with
      | some { content := .userdata words, metatable } => some (words, metatable)
      | _ => none
  | _ => none

def LuaState.see (s : LuaState) (value : Value) : Seen :=
  match value with
  | .object id =>
      match s.objects[id]? with
      | some { content := .userdata words, metatable } => .userdata words metatable
      | some { content := .table array, .. } => .list (array.map s.wrapped)
      | none => .plain value
  | _ => .plain value

inductive Declared
  | raised
  | values (seen : List Seen)
  deriving DecidableEq, Repr

/-- What a call hands to the plugin, if it comes to an end. -/
def handed (r : Scripting × CallResult) (L : Nat) : Option Declared :=
  match r.2 with
  | .crashed => none
  | .raised => some .raised
  | .returned values => (r.1.states[L]?).map fun s => .values (values.map s.see)

section

variable (engine : Engine)

/-- There is a world to create entities in, and a camera if the plugin needs one. -/
def worldReady (s : LuaState) : Bool :=
  (engine.gameWorld s.realm.toInt).isSome && (s.realm == .server || engine.camera)

/-- What `Read` of an entity has to hand over, if it has pushed what it returns. -/
def reading (entity : Option UInt64) (s : LuaState) : Option Declared :=
  match entity with
  | none => some .raised
  | some entity =>
      if entity = 0 then some (.values [])
      else
        match (s.value? 2).bind Value.string?, (s.value? 3).bind Value.string? with
        | some key, some typeName =>
            match engine.readProperty entity key, engine.nativeType typeName with
            | none, _ => some (.values [])
            | some value, some (type, .valueType) =>
                some (.values [.userdata [type, value] (some "ValueType")])
            | some value, some (_, .classRef) =>
                some (.values [.userdata [value] (some "DataContainer")])
            | some _, some (_, .other) => some (.values [])
            | some _, _ => none
        | _, _ => some .raised

/-- What a call is for, from the caller's own stack. -/
def declared (s : LuaState) : ApiCall → Declared
  | .create _ =>
      match s.userdata? 1 with
      | none => .raised
      | some container =>
          if worldReady engine s then
            .values [.userdata [engine.createEntity container] (some "Entity")]
          else .values []
  | .getList _ =>
      match (s.value? 1).bind Value.string? with
      | none => .values []
      | some entityName =>
          match s.value? 2 with
          | some (.integer realm) =>
              match engine.gameWorld realm with
              | none => .values []
              | some entities =>
                  .values [.list (((entities.filter (·.2 = entityName)).map Prod.fst).map
                    fun entity => some ([entity], some "Entity"))]
          | _ => .raised
  | .characterEntity _ =>
      match s.userdata? 1 with
      | none => .raised
      | some player => .values [.userdata [engine.characterEntity player] (some "Entity")]
  | .vehicleEntity _ =>
      match s.userdata? 1 with
      | none => .raised
      | some player => .values [.userdata [engine.vehicleEntity player] (some "Entity")]
  | .bus _ =>
      match s.userdata? 1 with
      | none => .raised
      | some entity => .values [.userdata [engine.entityBus entity] (some "EntityBus")]
  | .read _ => (reading engine (s.userdata? 1) s).getD (.values [])

/-- The frames of a state, the current one first. -/
def LuaState.stack (s : LuaState) : List (List Value) := s.frame :: s.callers

/-- The stack of a plugin, if there is the plugin. -/
def stackOf (w : Scripting) (K : Nat) : Option (List (List Value)) := (w.states[K]?).map LuaState.stack

/-- The plugin gets what the call is for, and the other plugins' stacks stay as they are. -/
structure Isolated (w : Scripting) (L : Nat) (caller : LuaState) (call : ApiCall) : Prop where
  handed : handed (perform engine w L call) L = some (declared engine (caller.enter call.frame) call)
  others : ∀ K, K ≠ L → stackOf (perform engine w L call).1 K = stackOf w K

/-! ## When it is right -/

/-- For the plugin that was loaded last a call is right if it pushes what it returns and
meets no null pointer. For another one, a list must have no entity, and the state of the
last plugin must have an entity in the place that `Read` looks at, from which the same is
read. -/
def respects (w : Scripting) (L : Nat) (s : LuaState) : ApiCall → Bool
  | .create _ =>
      match s.userdata? 1 with
      | none => s.value? 1 != some .nil
      | some container => container != 0 && worldReady engine s && L + 1 == w.states.length
  | .getList _ =>
      match (s.value? 1).bind Value.string? with
      | none => true
      | some entityName =>
          match s.value? 2 with
          | some (.integer realm) =>
              match engine.gameWorld realm with
              | none => false
              | some entities => L + 1 == w.states.length || entities.all (·.2 != entityName)
          | _ => true
  | .characterEntity _ | .vehicleEntity _ =>
      match s.userdata? 1 with
      | none => true
      | some player => player != 0 && L + 1 == w.states.length
  | .bus _ => L + 1 == w.states.length && s.userdata? 1 != some 0
  | .read _ =>
      if L + 1 = w.states.length then (reading engine (s.userdata? 1) s).isSome
      else
        match (w.states.getLast?).bind (·.userdata? 1) with
        | none => false
        | some entity => reading engine (some entity) s == some (declared engine s (.read s.frame))

end

/-! ## States -/

section

variable {w w' : Scripting} {L K : Nat} {s : LuaState} {engine : Engine}

/-- A userdata with a metatable on top of the stack. -/
def LuaState.wrap (s : LuaState) (words : List UInt64) (name : String) : LuaState :=
  { s with
    objects := s.objects ++ [{ content := .userdata words, metatable := some name }]
    frame := s.frame ++ [.object s.objects.length] }

theorem modify_append_cons {α : Type} (l r : List α) (a : α) (f : α → α) :
    (l ++ a :: r).modify l.length f = l ++ f a :: r := by
  induction l with
  | nil => rfl
  | cons b l ih => exact congrArg (b :: ·) ih

theorem setMetatable_newUserdata (s : LuaState) (words : List UInt64) (name : String) :
    (s.newUserdata words).setMetatable name = s.wrap words name := by
  simp [LuaState.newUserdata, LuaState.setMetatable, LuaState.wrap, modify_append_cons]

/-- What is left of the stack when the top is returned. -/
theorem see_wrap (s : LuaState) (words : List UInt64) (name : String) :
    (s.wrap words name).see (.object s.objects.length) = .userdata words (some name) := by
  simp [LuaState.see, LuaState.wrap]

theorem states_modify_self (h : w.states[L]? = some s) (f : LuaState → LuaState) :
    (w.modify L f).states[L]? = some (f s) := by
  simp [Scripting.modify, h]

theorem states_modify_of_ne (h : K ≠ L) (f : LuaState → LuaState) :
    (w.modify L f).states[K]? = w.states[K]? := by
  simp [Scripting.modify, Ne.symm h]

@[simp] theorem sLua_modify (f : LuaState → LuaState) : (w.modify L f).sLua = w.sLua := rfl

@[simp] theorem length_modify (f : LuaState → LuaState) :
    (w.modify L f).states.length = w.states.length := by
  simp [Scripting.modify]

theorem stackOf_modify_of_ne (h : K ≠ L) (f : LuaState → LuaState) :
    stackOf (w.modify L f) K = stackOf w K := by
  rw [stackOf, states_modify_of_ne h, stackOf]

/-- The stacks of the other plugins are as they were. -/
def Quiet (w w' : Scripting) (L : Nat) : Prop := ∀ K, K ≠ L → stackOf w' K = stackOf w K

theorem quiet_modify (f : LuaState → LuaState) : Quiet w (w.modify L f) L :=
  fun _ hK => stackOf_modify_of_ne hK f

theorem Quiet.trans {w'' : Scripting} (h : Quiet w w' L) (h' : Quiet w' w'' L) : Quiet w w'' L :=
  fun K hK => (h' K hK).trans (h K hK)

theorem returns_eq (h : w.states[L]? = some s) (count : Nat) :
    w.returns L count =
      (w.modify L .leave, .returned (s.frame.drop (s.frame.length - count))) := by
  simp [Scripting.returns, h]

theorem handed_returns (h : w.states[L]? = some s) (count : Nat) :
    handed (w.returns L count) L =
      some (.values ((s.frame.drop (s.frame.length - count)).map s.see)) := by
  rw [returns_eq h]
  simp only [handed, states_modify_self h, Option.map_some]
  rfl

theorem quiet_returns (h : w.states[L]? = some s) (count : Nat) :
    Quiet w (w.returns L count).1 L := by
  rw [returns_eq h]
  exact quiet_modify _

/-! ## The plugin that was loaded last -/

/-- The top of the stack is a userdata that has been wrapped. -/
theorem handed_wrap {words : List UInt64} {name : String}
    (h : w.states[L]? = some (s.wrap words name)) :
    handed (w.returns L 1) L = some (.values [.userdata words (some name)]) := by
  rw [handed_returns h]
  have htop : (s.wrap words name).frame.drop ((s.wrap words name).frame.length - 1) =
      [.object s.objects.length] := by
    simp [LuaState.wrap]
  rw [htop, List.map_singleton, see_wrap]

theorem wrap_self (hself : w.sLua = some L) (h : w.states[L]? = some s) (words : List UInt64)
    (name : String) :
    ((w.onStatic (·.newUserdata words)).modify L (·.setMetatable name)).states[L]? =
      some (s.wrap words name) := by
  rw [Scripting.onStatic, hself]
  rw [states_modify_self (states_modify_self h _), setMetatable_newUserdata]

theorem quiet_wrap (hself : w.sLua = some L) (words : List UInt64) (name : String) :
    Quiet w ((w.onStatic (·.newUserdata words)).modify L (·.setMetatable name)) L := by
  rw [Scripting.onStatic, hself]
  exact (quiet_modify _).trans (quiet_modify _)

/-- What is pushed in the caller's own state is handed over. -/
theorem push_self (hself : w.sLua = some L) (h : w.states[L]? = some s) (words : List UInt64)
    (name : String) :
    handed (((w.onStatic (·.newUserdata words)).modify L (·.setMetatable name)).returns L 1) L =
        some (.values [.userdata words (some name)]) ∧
      Quiet w (((w.onStatic (·.newUserdata words)).modify L (·.setMetatable name)).returns L 1).1
        L := by
  have hwrap := wrap_self hself h words name
  exact ⟨handed_wrap hwrap, (quiet_wrap hself words name).trans (quiet_returns hwrap 1)⟩

/-! ## Another plugin -/

/-- The number of values in the current frame. -/
def count (w : Scripting) (K : Nat) : Option Nat := (stackOf w K).map fun stack => (stack.headD []).length

theorem count_modify (hK : K ≠ L) (f : LuaState → LuaState) : count (w.modify L f) K = count w K := by
  rw [count, stackOf_modify_of_ne hK, count]

/-- A wrapper is made in the state of the plugin that was loaded last. -/
theorem count_wrap (hstatic : w.sLua = some K) (hK : K ≠ L) (words : List UInt64) (name : String) :
    count ((w.onStatic (·.newUserdata words)).modify L (·.setMetatable name)) K =
      (count w K).map (· + 1) := by
  rw [count_modify hK, Scripting.onStatic, hstatic]
  cases h : w.states[K]? with
  | none => simp [count, stackOf, Scripting.modify, h]
  | some t => simp [count, stackOf, Scripting.modify, h, LuaState.newUserdata, LuaState.stack]

theorem count_returns (hK : K ≠ L) (n : Nat) : count (w.returns L n).1 K = count w K := by
  unfold Scripting.returns
  split
  · rfl
  · exact count_modify hK _

/-- A call that has made a wrapper there is not quiet. -/
theorem not_quiet_of_count {n : Nat} (hK : K ≠ L) (hlt : K < w.states.length) (hn : 0 < n)
    (hcount : count w' K = (count w K).map (· + n)) : ¬ Quiet w w' L := by
  intro h
  obtain ⟨t, ht⟩ : ∃ t, w.states[K]? = some t := ⟨_, List.getElem?_eq_getElem hlt⟩
  rw [count, h K hK, count, stackOf, ht] at hcount
  simp only [Option.map_some, Option.some.injEq] at hcount
  omega

theorem push_other (hstatic : w.sLua = some K) (hK : K ≠ L) (hlt : K < w.states.length)
    (words : List UInt64) (name : String) :
    ¬ Quiet w (((w.onStatic (·.newUserdata words)).modify L (·.setMetatable name)).returns L 1).1
      L := by
  refine not_quiet_of_count hK hlt Nat.one_pos ?_
  rw [count_returns hK, count_wrap hstatic hK]

/-! ## Functions -/

/-- A function runs with its frame, and the static variable is the last state. -/
structure Running (w : Scripting) (L : Nat) (s : LuaState) : Prop where
  caller : w.states[L]? = some s
  static : w.sLua = some (w.states.length - 1)

theorem Running.lt (h : Running w L s) : L < w.states.length :=
  (List.getElem?_eq_some_iff.mp h.caller).1

theorem Running.self (h : Running w L s) (hlast : L + 1 = w.states.length) : w.sLua = some L := by
  rw [h.static, ← hlast]
  rfl

/-- The result is what is declared, and nothing happens to other plugins. -/
def Right (w : Scripting) (L : Nat) (r : Scripting × CallResult) (d : Declared) : Prop :=
  handed r L = some d ∧ Quiet w r.1 L

theorem right_raise : Right w L (w.raise L) .raised := ⟨rfl, quiet_modify _⟩

theorem not_right_crashed {d : Declared} : ¬ Right w L (w', .crashed) d := by
  rintro ⟨h, -⟩
  cases h

theorem right_returns_zero (h : Running w L s) : Right w L (w.returns L 0) (.values []) := by
  refine ⟨?_, quiet_returns h.caller 0⟩
  rw [handed_returns h.caller, Nat.sub_zero, List.drop_length, List.map_nil]

/-- A value is returned that has not been pushed. -/
theorem not_right_unpushed (h : Running w L s) {i : Nat} {value : Value}
    (hvalue : s.value? i = some value) : ¬ Right w L (w.returns L 1) (.values []) := by
  rintro ⟨hhanded, -⟩
  have hframe : 0 < s.frame.length :=
    Nat.lt_of_le_of_lt (Nat.zero_le _) (List.getElem?_eq_some_iff.mp hvalue).1
  rw [handed_returns h.caller, Option.some.injEq, Declared.values.injEq] at hhanded
  have hlength := congrArg List.length hhanded
  rw [List.length_map, List.length_drop, List.length_nil] at hlength
  omega

theorem right_push_iff (h : Running w L s) (words : List UInt64) (name : String) :
    Right w L (((w.onStatic (·.newUserdata words)).modify L (·.setMetatable name)).returns L 1)
      (.values [.userdata words (some name)]) ↔ L + 1 = w.states.length := by
  constructor
  · rintro ⟨-, hquiet⟩
    by_contra hne
    have hlt := h.lt
    exact push_other h.static (by omega) (by omega) _ _ hquiet
  · intro hlast
    exact push_self (h.self hlast) h.caller words name

theorem right_pushEntity_iff (h : Running w L s) (entity : UInt64) :
    Right w L ((w.pushEntity L entity).returns L 1) (.values [.userdata [entity] (some "Entity")]) ↔
      L + 1 = w.states.length :=
  right_push_iff h [entity] "Entity"

theorem right_pushEntityBus_iff (h : Running w L s) (bus : UInt64) :
    Right w L ((w.pushEntityBus L bus).returns L 1) (.values [.userdata [bus] (some "EntityBus")]) ↔
      L + 1 = w.states.length :=
  right_push_iff h [bus] "EntityBus"

theorem value?_of_userdata? {index : Nat} {word : UInt64} (h : s.userdata? index = some word) :
    ∃ value, s.value? index = some value := by
  unfold LuaState.userdata? at h
  cases hvalue : s.value? index with
  | none => simp [hvalue] at h
  | some value => exact ⟨value, rfl⟩

theorem create_iff (h : Running w L s) (arguments : List Value) :
    Right w L (createEntityFunc engine w L s) (declared engine s (.create arguments)) ↔
      respects engine w L s (.create arguments) = true := by
  simp only [createEntityFunc, declared, respects]
  cases hcontainer : s.userdata? 1 with
  | none =>
      by_cases hnil : s.value? 1 = some .nil
      · simpa [hnil] using not_right_crashed
      · simpa [hnil] using right_raise
  | some container =>
      obtain ⟨value, hvalue⟩ := value?_of_userdata? hcontainer
      by_cases hnull : container = 0
      · simpa [hnull] using not_right_crashed
      · cases hworld : engine.gameWorld s.realm.toInt with
        | none => simpa [hnull, hworld, worldReady] using not_right_unpushed h hvalue
        | some entities =>
            by_cases hcamera : s.realm = .client ∧ engine.camera = false
            · simpa [hnull, hworld, hcamera, worldReady] using not_right_unpushed h hvalue
            · have hready : worldReady engine s = true := by
                rw [worldReady, hworld]
                cases hrealm : s.realm with
                | client => simpa [hrealm] using hcamera
                | server => rfl
              simpa [hnull, hworld, hcamera, hready] using
                right_pushEntity_iff h (engine.createEntity container)

theorem serverPlayerIndex_iff (h : Running w L s) (entityOf : UInt64 → UInt64) :
    Right w L (serverPlayerIndex entityOf w L s)
        (match s.userdata? 1 with
        | none => .raised
        | some player => .values [.userdata [entityOf player] (some "Entity")]) ↔
      (match s.userdata? 1 with
      | none => true
      | some player => player != 0 && L + 1 == w.states.length) = true := by
  unfold serverPlayerIndex
  cases s.userdata? 1 with
  | none => simpa using right_raise
  | some player =>
      by_cases hnull : player = 0
      · simpa [hnull] using not_right_crashed
      · simpa [hnull] using right_pushEntity_iff h (entityOf player)

/-- The entity that a function of an entity works on. -/
theorem getEntity_self (hself : w.sLua = some L) (h : w.states[L]? = some s) (index : Nat) :
    w.getEntity L index =
      match s.userdata? index with
      | some word => .ok word
      | none => .error .raised := by
  cases hentity : s.userdata? index <;> simp [Scripting.getEntity, hself, h, hentity]

theorem getEntity_other (hstatic : w.sLua = some K) (hK : K ≠ L) (index : Nat) :
    w.getEntity L index =
      match (w.states[K]?).bind (·.userdata? index) with
      | some word => .ok word
      | none => .error .crashed := by
  cases hentity : (w.states[K]?).bind (·.userdata? index) <;>
    simp [Scripting.getEntity, hstatic, hK, hentity]

theorem bus_iff (h : Running w L s) (entity : Value) :
    Right w L (entityIndex engine w L) (declared engine s (.bus entity)) ↔
      respects engine w L s (.bus entity) = true := by
  simp only [entityIndex, declared, respects]
  by_cases hlast : L + 1 = w.states.length
  · rw [getEntity_self (h.self hlast) h.caller]
    cases s.userdata? 1 with
    | none => simpa [hlast] using right_raise
    | some word =>
        by_cases hnull : word = 0
        · simpa [hnull] using not_right_crashed
        · simpa [hnull] using right_pushEntityBus_iff h (engine.entityBus word)
  · have hlt := h.lt
    have hK : w.states.length - 1 ≠ L := by omega
    rw [getEntity_other h.static hK]
    refine iff_of_false ?_ (by simp [hlast])
    cases (w.states[w.states.length - 1]?).bind (·.userdata? 1) with
    | none => exact not_right_crashed
    | some word =>
        by_cases hnull : word = 0
        · simpa [hnull] using not_right_crashed
        · rintro ⟨-, hquiet⟩
          simp only [hnull, if_false] at hquiet
          exact push_other h.static hK (by omega) _ _ hquiet

/-- What is wrapped in the caller's state is handed over. -/
theorem right_wrap (h : Running w L s) (words : List UInt64) (name : String) :
    Right w L (((w.modify L (·.newUserdata words)).modify L (·.setMetatable name)).returns L 1)
      (.values [.userdata words (some name)]) := by
  have hwrap : ((w.modify L (·.newUserdata words)).modify L (·.setMetatable name)).states[L]? =
      some (s.wrap words name) := by
    rw [states_modify_self (states_modify_self h.caller _), setMetatable_newUserdata]
  exact ⟨handed_wrap hwrap,
    ((quiet_modify _).trans (quiet_modify _)).trans (quiet_returns hwrap 1)⟩

/-- `Read` hands over what there is to read from the entity that it has got. -/
theorem entityRead_right (h : Running w L s) {entity : UInt64}
    (hentity : w.getEntity L 1 = .ok entity) {d : Declared}
    (hreading : reading engine (some entity) s = some d) :
    Right w L (entityRead engine w L s) d := by
  simp only [entityRead, hentity]
  simp only [reading] at hreading
  by_cases hnull : entity = 0
  · rw [if_pos hnull] at hreading ⊢
    cases hreading
    exact right_returns_zero h
  rw [if_neg hnull] at hreading ⊢
  -- both functions look at the same values, so each case is named before either is reduced
  cases hkey : (s.value? 2).bind Value.string? with
  | none =>
      simp only [hkey, Option.some.injEq] at hreading
      subst hreading
      exact right_raise
  | some key =>
  cases htype : (s.value? 3).bind Value.string? with
  | none =>
      simp only [hkey, htype, Option.some.injEq] at hreading
      subst hreading
      exact right_raise
  | some typeName =>
  simp only [hkey, htype] at hreading ⊢
  cases hproperty : engine.readProperty entity key with
  | none =>
      simp only [hproperty, Option.some.injEq] at hreading ⊢
      subst hreading
      exact right_returns_zero h
  | some value =>
  cases hnative : engine.nativeType typeName with
  | none => simp [hproperty, hnative] at hreading
  | some native =>
  obtain ⟨type, basic⟩ := native
  cases basic with
  | void => simp [hproperty, hnative] at hreading
  | dbObject => simp [hproperty, hnative] at hreading
  | valueType =>
      simp only [hproperty, hnative, Option.some.injEq] at hreading ⊢
      subst hreading
      exact right_wrap h _ _
  | classRef =>
      simp only [hproperty, hnative, Option.some.injEq] at hreading ⊢
      subst hreading
      exact right_wrap h _ _
  | other =>
      simp only [hproperty, hnative, Option.some.injEq] at hreading ⊢
      subst hreading
      exact right_returns_zero h

/-- There is a value of a type for which nothing is pushed. -/
theorem reading_eq_none {entity : UInt64} (h : reading engine (some entity) s = none) :
    entity ≠ 0 ∧ ∃ key typeName value, (s.value? 2).bind Value.string? = some key ∧
      (s.value? 3).bind Value.string? = some typeName ∧
      engine.readProperty entity key = some value ∧
      (engine.nativeType typeName = none ∨ ∃ type, engine.nativeType typeName = some (type, .void) ∨
        engine.nativeType typeName = some (type, .dbObject)) := by
  simp only [reading] at h
  split at h
  · cases h
  · next hnull =>
      split at h
      · next key typeName hkey htype =>
          refine ⟨hnull, key, typeName, ?_⟩
          cases hproperty : engine.readProperty entity key with
          | none => simp [hproperty] at h
          | some value =>
              refine ⟨value, hkey, htype, rfl, ?_⟩
              match hnative : engine.nativeType typeName with
              | none => exact .inl rfl
              | some (type, .void) => exact .inr ⟨type, .inl rfl⟩
              | some (type, .dbObject) => exact .inr ⟨type, .inr rfl⟩
              | some (type, .valueType) | some (type, .classRef) | some (type, .other) =>
                  simp [hproperty, hnative] at h
      · cases h

/-- Then nothing is declared, whatever the entity is. -/
theorem declared_of_void {typeName : String} {type : UInt64}
    (htype : (s.value? 3).bind Value.string? = some typeName)
    (hnative : engine.nativeType typeName = some (type, .void) ∨
      engine.nativeType typeName = some (type, .dbObject)) (entity : Option UInt64) :
    (reading engine entity s).getD (.values []) = .raised ∨
      (reading engine entity s).getD (.values []) = .values [] := by
  cases entity with
  | none => exact .inl rfl
  | some entity =>
      simp only [reading, htype]
      split
      · exact .inr rfl
      · cases (s.value? 2).bind Value.string? with
        | none => exact .inl rfl
        | some key =>
            right
            dsimp only
            cases engine.readProperty entity key with
            | none => rfl
            | some value =>
                rcases hnative with hnative | hnative <;>
                  · rw [hnative]
                    rfl

theorem not_entityRead_right (h : Running w L s) {entity : UInt64}
    (hentity : w.getEntity L 1 = .ok entity) (hreading : reading engine (some entity) s = none)
    (own : Option UInt64) :
    ¬ Right w L (entityRead engine w L s) ((reading engine own s).getD (.values [])) := by
  obtain ⟨hnull, key, typeName, value, hkey, htype, hproperty, hnative⟩ := reading_eq_none hreading
  obtain ⟨argument, hargument⟩ : ∃ v, s.value? 3 = some v := by
    cases hvalue : s.value? 3 with
    | none => simp [hvalue] at htype
    | some v => exact ⟨v, rfl⟩
  simp only [entityRead, hentity, hkey, htype, hproperty, if_neg hnull]
  rcases hnative with hnative | ⟨type, hnative⟩
  · rw [hnative]
    exact not_right_crashed
  · rcases declared_of_void htype hnative own with hraised | hnothing
    · rw [hraised]
      rintro ⟨hhanded, -⟩
      rcases hnative with hnative | hnative <;>
        · simp only [hnative, handed_returns h.caller] at hhanded
          cases hhanded
    · rw [hnothing]
      rcases hnative with hnative | hnative <;>
        · simp only [hnative]
          exact not_right_unpushed h hargument

theorem read_iff (h : Running w L s) :
    Right w L (entityRead engine w L s) (declared engine s (.read s.frame)) ↔
      respects engine w L s (.read s.frame) = true := by
  simp only [respects]
  -- What `Read` does with the entity that it has got.
  have hgot : ∀ {entity}, w.getEntity L 1 = .ok entity →
      (Right w L (entityRead engine w L s) (declared engine s (.read s.frame)) ↔
        reading engine (some entity) s = some (declared engine s (.read s.frame))) := by
    intro entity hentity
    refine ⟨fun hright => ?_, entityRead_right h hentity⟩
    cases hreading : reading engine (some entity) s with
    | none => exact absurd hright (not_entityRead_right h hentity hreading _)
    | some d =>
        have hd := entityRead_right h hentity hreading
        exact hd.1.symm.trans hright.1
  by_cases hlast : L + 1 = w.states.length
  · rw [if_pos hlast]
    have hself := getEntity_self (h.self hlast) h.caller 1
    cases hown : s.userdata? 1 with
    | none =>
        rw [hown] at hself
        refine iff_of_true ?_ rfl
        simp only [entityRead, hself, declared, hown]
        exact right_raise
    | some entity =>
        rw [hown] at hself
        rw [hgot hself, declared, hown]
        cases reading engine (some entity) s <;> simp
  · rw [if_neg hlast]
    have hlt := h.lt
    have hother := getEntity_other h.static (show w.states.length - 1 ≠ L by omega) 1
    rw [← List.getLast?_eq_getElem?] at hother
    cases hentity : (w.states.getLast?).bind (·.userdata? 1) with
    | none =>
        rw [hentity] at hother
        refine iff_of_false ?_ (by simp)
        simp only [entityRead, hother]
        exact not_right_crashed
    | some entity =>
        rw [hentity] at hother
        rw [hgot hother]
        simp

/-! ## Lists -/

/-- The state with a table of entities on top of the stack. -/
def LuaState.listed (s : LuaState) (entities : List UInt64) : LuaState :=
  { s with
    objects := s.objects ++
      { content := .table ((List.range entities.length).map fun i =>
          .object (s.objects.length + 1 + i)) } ::
        entities.map fun entity => { content := .userdata [entity], metatable := some "Entity" }
    frame := s.frame ++ [.object s.objects.length] }

/-- The place after the last one. -/
theorem setElement_succ {array : List Value} {n : Nat} (h : array.length = n) (value : Value) :
    LuaState.setElement array (n + 1) value = array ++ [value] := by
  subst h
  simp [LuaState.setElement]

theorem rawSetI_wrap_listed (s : LuaState) (entities : List UInt64) (entity : UInt64) :
    ((s.listed entities).wrap [entity] "Entity").rawSetI (entities.length + 1) =
      some (s.listed (entities ++ [entity])) := by
  have hreverse : ((s.listed entities).wrap [entity] "Entity").frame.reverse =
      .object (s.objects.length + 1 + entities.length) :: .object s.objects.length ::
        s.frame.reverse := by
    simp only [LuaState.wrap, LuaState.listed, List.reverse_append, List.reverse_singleton,
      List.singleton_append, List.length_append, List.length_cons, List.length_map,
      List.cons.injEq, Value.object.injEq, and_true]
    omega
  have hobject : ((s.listed entities).wrap [entity] "Entity").objects[s.objects.length]? =
      some { content := .table ((List.range entities.length).map fun i =>
        .object (s.objects.length + 1 + i)) } := by
    simp [LuaState.wrap, LuaState.listed]
  have hlength : ((List.range entities.length).map fun i =>
      Value.object (s.objects.length + 1 + i)).length = entities.length := by simp
  simp only [LuaState.rawSetI, hreverse, hobject, Option.some.injEq]
  simp only [LuaState.wrap, LuaState.listed, List.append_assoc, List.cons_append,
    modify_append_cons, List.length_append, List.length_singleton, List.range_succ, List.map_append,
    List.map_cons, List.map_nil]
  rw [setElement_succ hlength]
  simp

theorem pushList_self (hself : w.sLua = some L) {before : List UInt64}
    (h : w.states[L]? = some (s.listed before)) (entities : List UInt64) :
    ∃ w', pushList L (before.length + 1) w entities = some w' ∧
      w'.states[L]? = some (s.listed (before ++ entities)) ∧ Quiet w w' L := by
  induction entities generalizing w before with
  | nil => exact ⟨w, rfl, by rw [List.append_nil]; exact h, fun _ _ => rfl⟩
  | cons entity entities ih =>
      have hwrap : (w.pushEntity L entity).states[L]? = some ((s.listed before).wrap [entity] "Entity") :=
        wrap_self hself h [entity] "Entity"
      have hnext := states_modify_self hwrap fun _ => s.listed (before ++ [entity])
      have hself' : ((w.pushEntity L entity).modify L fun _ =>
          s.listed (before ++ [entity])).sLua = some L := by
        simp only [Scripting.pushEntity, Scripting.wrapEntity, Scripting.onStatic, hself, sLua_modify]
      obtain ⟨w', hpush, hlisted, hquiet⟩ := ih hself' hnext
      refine ⟨w', ?_, by simpa using hlisted, ?_⟩
      · rw [List.length_append, List.length_singleton] at hpush
        simp only [pushList, hwrap, Option.bind_some, rawSetI_wrap_listed]
        exact hpush
      · exact ((quiet_wrap hself [entity] "Entity").trans (quiet_modify _)).trans hquiet

/-- The table shows the entities. -/
theorem see_listed (s : LuaState) (entities : List UInt64) :
    (s.listed entities).see (.object s.objects.length) =
      .list (entities.map fun entity => some ([entity], some "Entity")) := by
  have hobject : (s.listed entities).objects[s.objects.length]? =
      some { content := .table ((List.range entities.length).map fun i =>
        .object (s.objects.length + 1 + i)) } := by
    simp [LuaState.listed]
  simp only [LuaState.see, hobject, Seen.list.injEq]
  refine List.ext_getElem? fun i => ?_
  simp only [List.getElem?_map]
  by_cases hi : i < entities.length
  · have hentity : (s.listed entities).objects[s.objects.length + 1 + i]? =
        some { content := .userdata [entities[i]], metatable := some "Entity" } := by
      simp [LuaState.listed, Nat.add_assoc, Nat.add_comm 1, hi]
    simp [hi, LuaState.wrapped, hentity]
  · simp [hi]

theorem count_pushList (hstatic : w.sLua = some K) (hK : K ≠ L) {i : Nat}
    {entities : List UInt64} (h : pushList L i w entities = some w') :
    count w' K = (count w K).map (· + entities.length) := by
  induction entities generalizing i w with
  | nil =>
      cases h
      simp
  | cons entity entities ih =>
      obtain ⟨s, -, h⟩ := Option.bind_eq_some_iff.mp h
      have hstatic' : ((w.pushEntity L entity).modify L fun _ => s).sLua = some K := by
        simp only [Scripting.pushEntity, Scripting.wrapEntity, Scripting.onStatic, hstatic, sLua_modify]
      have hcount := count_wrap hstatic hK [entity] "Entity"
      rw [ih hstatic' h, count_modify hK, Scripting.pushEntity, Scripting.wrapEntity, hcount,
        Option.map_map]
      congr 1
      funext n
      simp only [Function.comp_apply, List.length_cons]
      omega

/-- A list is handed over by the plugin that was loaded last, or if it is empty. -/
theorem pushList_iff (h : Running w L s) (entities : List UInt64) :
    Right w L
        (match pushList L 1 (w.modify L .createTable) entities with
        | none => (w, .crashed)
        | some w => w.returns L 1)
        (.values [.list (entities.map fun entity => some ([entity], some "Entity"))]) ↔
      L + 1 = w.states.length ∨ entities = [] := by
  have htable : (w.modify L .createTable).states[L]? = some (s.listed []) :=
    states_modify_self h.caller _
  have hreturned : ∀ {w' : Scripting}, w'.states[L]? = some (s.listed entities) →
      handed (w'.returns L 1) L =
        some (.values [.list (entities.map fun entity => some ([entity], some "Entity"))]) := by
    intro w' hlisted
    have htop : (s.listed entities).frame.drop ((s.listed entities).frame.length - 1) =
        [.object s.objects.length] := by
      simp [LuaState.listed]
    rw [handed_returns hlisted, htop, List.map_singleton, see_listed]
  by_cases hlast : L + 1 = w.states.length
  · have hself : (w.modify L .createTable).sLua = some L := h.self hlast
    obtain ⟨w', hpush, hlisted, hquiet⟩ := pushList_self hself htable entities
    rw [show pushList L 1 (w.modify L .createTable) entities = some w' from hpush]
    exact iff_of_true ⟨hreturned hlisted, ((quiet_modify _).trans hquiet).trans
      (quiet_returns hlisted 1)⟩ (.inl hlast)
  · have hlt := h.lt
    cases entities with
    | nil =>
        refine iff_of_true ?_ (.inr rfl)
        exact ⟨hreturned htable, (quiet_modify _).trans (quiet_returns htable 1)⟩
    | cons entity entities =>
        refine iff_of_false ?_ (by simp [hlast])
        cases hpush : pushList L 1 (w.modify L .createTable) (entity :: entities) with
        | none => exact not_right_crashed
        | some w' =>
            have hK : w.states.length - 1 ≠ L := by omega
            have hstatic : (w.modify L .createTable).sLua = some (w.states.length - 1) := h.static
            rintro ⟨-, hquiet⟩
            refine not_quiet_of_count (n := (entity :: entities).length) hK (by omega)
              (Nat.succ_pos _) ?_ hquiet
            rw [count_returns hK, count_pushList hstatic hK hpush, count_modify hK]

theorem getList_iff (h : Running w L s) (arguments : List Value) :
    Right w L (getListFunc engine w L s) (declared engine s (.getList arguments)) ↔
      respects engine w L s (.getList arguments) = true := by
  simp only [getListFunc, declared, respects]
  cases (s.value? 1).bind Value.string? with
  | none => exact iff_of_true (right_returns_zero h) rfl
  | some entityName =>
      cases hrealm : s.value? 2 with
      | none => exact iff_of_true right_raise rfl
      | some value =>
          cases value with
          | integer realm =>
              dsimp only
              cases engine.gameWorld realm with
              | none => exact iff_of_false (not_right_unpushed h hrealm) (by simp)
              | some entities =>
                  refine (pushList_iff h _).trans ?_
                  simp [List.filter_eq_nil_iff]
          | nil | boolean _ | string _ | registered _ | lightUserdata _ | object _ =>
              exact iff_of_true right_raise rfl

end

/-! ## Runs -/

section

variable {w w' : Scripting} {L : Nat} {s caller : LuaState} {engine : Engine}

/-- A change of the caller's state does not matter to the condition. -/
theorem respects_modify (f : LuaState → LuaState) (s : LuaState) (call : ApiCall) :
    respects engine (w.modify L f) L s call = respects engine w L s call := by
  cases call with
  | create | getList | characterEntity | vehicleEntity | bus => simp only [respects, length_modify]
  | read arguments =>
      simp only [respects, length_modify]
      split
      · rfl
      · next hlast =>
          have hstates : (w.modify L f).states.getLast? = w.states.getLast? := by
            by_cases hempty : w.states.length = 0
            · simp [Scripting.modify, List.length_eq_zero_iff.mp hempty]
            · rw [List.getLast?_eq_getElem?, List.getLast?_eq_getElem?, length_modify]
              exact states_modify_of_ne (by omega) f
          rw [hstates]

theorem isolated_iff (hcaller : w.states[L]? = some caller)
    (hstatic : w.sLua = some (w.states.length - 1)) (call : ApiCall) :
    Isolated engine w L caller call ↔
      respects engine w L (caller.enter call.frame) call = true := by
  have hrunning : Running (w.modify L fun _ => caller.enter call.frame) L
      (caller.enter call.frame) :=
    ⟨states_modify_self hcaller _, by rw [sLua_modify, length_modify, hstatic]⟩
  -- The frame of the call is no change of another plugin's state.
  have hright : Isolated engine w L caller call ↔
      Right (w.modify L fun _ => caller.enter call.frame) L (perform engine w L call)
        (declared engine (caller.enter call.frame) call) := by
    refine ⟨fun h => ⟨h.handed, fun K hK => ?_⟩, fun h => ⟨h.1, fun K hK => ?_⟩⟩
    · rw [stackOf_modify_of_ne hK]
      exact h.others K hK
    · rw [h.2 K hK, stackOf_modify_of_ne hK]
  rw [hright, ← respects_modify fun _ => caller.enter call.frame]
  simp only [perform, hcaller]
  cases call with
  | create arguments => exact create_iff hrunning arguments
  | getList arguments => exact getList_iff hrunning arguments
  | characterEntity player => exact serverPlayerIndex_iff hrunning engine.characterEntity
  | vehicleEntity player => exact serverPlayerIndex_iff hrunning engine.vehicleEntity
  | bus entity => exact bus_iff hrunning entity
  | read arguments => exact read_iff hrunning

/-- The plugins and the static variable are those from before. -/
def Same (w w' : Scripting) : Prop := w'.sLua = w.sLua ∧ w'.states.length = w.states.length

theorem Same.refl (w : Scripting) : Same w w := ⟨rfl, rfl⟩

theorem same_modify (f : LuaState → LuaState) : Same w (w.modify L f) := ⟨rfl, length_modify f⟩

theorem Same.modify (h : Same w w') (f : LuaState → LuaState) : Same w (w'.modify L f) :=
  ⟨h.1, (length_modify f).trans h.2⟩

theorem same_push (words : List UInt64) (name : String) :
    Same w ((w.onStatic (·.newUserdata words)).modify L (·.setMetatable name)) := by
  refine Same.modify ?_ _
  unfold Scripting.onStatic
  split
  · exact .refl w
  · exact same_modify _

theorem Same.returns (h : Same w w') (n : Nat) : Same w (w'.returns L n).1 := by
  unfold Scripting.returns
  split
  · exact h
  · exact h.modify _

theorem same_pushList {i : Nat} {entities : List UInt64} {w₀ : Scripting} (h : Same w₀ w)
    (hpush : pushList L i w entities = some w') : Same w₀ w' := by
  induction entities generalizing i w with
  | nil =>
      cases hpush
      exact h
  | cons entity entities ih =>
      obtain ⟨s, -, hpush⟩ := Option.bind_eq_some_iff.mp hpush
      have hentity : Same w (w.pushEntity L entity) := same_push [entity] "Entity"
      exact ih (Same.modify ⟨hentity.1.trans h.1, hentity.2.trans h.2⟩ _) hpush

theorem same_createEntityFunc : Same w (createEntityFunc engine w L s).1 := by
  unfold createEntityFunc
  split
  · split
    · exact .refl w
    · exact same_modify _
  · split
    · exact .refl w
    · split
      · exact (Same.refl w).returns 1
      · split
        · exact (Same.refl w).returns 1
        · exact Same.returns (same_push _ _) 1

theorem same_getListFunc : Same w (getListFunc engine w L s).1 := by
  unfold getListFunc
  split
  · exact (Same.refl w).returns 0
  · split
    · split
      · exact (Same.refl w).returns 1
      · dsimp only
        split
        · exact .refl w
        · next hpush => exact (same_pushList (same_modify _) hpush).returns 1
    · exact same_modify _

theorem same_serverPlayerIndex (entityOf : UInt64 → UInt64) :
    Same w (serverPlayerIndex entityOf w L s).1 := by
  unfold serverPlayerIndex
  split
  · exact same_modify _
  · split
    · exact .refl w
    · exact Same.returns (same_push _ _) 1

theorem same_entityIndex : Same w (entityIndex engine w L).1 := by
  unfold entityIndex
  split
  · exact same_modify _
  · exact .refl w
  · split
    · exact .refl w
    · exact Same.returns (same_push _ _) 1

theorem same_entityRead : Same w (entityRead engine w L s).1 := by
  unfold entityRead
  split
  · exact same_modify _
  · exact .refl w
  · split
    · exact (Same.refl w).returns 0
    · split
      · split
        · exact (Same.refl w).returns 0
        · exact .refl w
        · exact ((same_modify _).modify _).returns 1
        · exact ((same_modify _).modify _).returns 1
        · exact (Same.refl w).returns 1
        · exact (Same.refl w).returns 1
        · exact (Same.refl w).returns 0
      · exact same_modify _

theorem same_perform (call : ApiCall) : Same w (perform engine w L call).1 := by
  unfold perform
  split
  · exact .refl w
  · next caller hcaller =>
      -- The frame comes first, then what the function does.
      have htrans : ∀ {r}, Same (w.modify L fun _ => caller.enter call.frame) r → Same w r :=
        fun h => ⟨h.1, h.2.trans (length_modify _)⟩
      cases call with
      | create arguments => exact htrans same_createEntityFunc
      | getList arguments => exact htrans same_getListFunc
      | characterEntity player => exact htrans (same_serverPlayerIndex _)
      | vehicleEntity player => exact htrans (same_serverPlayerIndex _)
      | bus entity => exact htrans same_entityIndex
      | read arguments => exact htrans same_entityRead

/-- The static variable is the state of the plugin that was loaded last. -/
def LastLoaded (w : Scripting) : Prop := w.states ≠ [] → w.sLua = some (w.states.length - 1)

theorem LastLoaded.same (h : LastLoaded w) (hsame : Same w w') : LastLoaded w' := by
  intro hstates
  rw [hsame.1, hsame.2]
  refine h fun hempty => hstates ?_
  rw [← List.length_eq_zero_iff, hsame.2, hempty, List.length_nil]

theorem LastLoaded.step {a : Action} (h : LastLoaded w) (hstep : step engine w a = some w') :
    LastLoaded w' := by
  cases a with
  | load realm =>
      cases hstep
      intro _
      simp [Scripting.load]
  | lua L s =>
      cases hstep
      exact h.same (same_modify _)
  | call L call =>
      have hsame : Same w (perform engine w L call).1 := same_perform call
      simp only [Stacks.step] at hstep
      split at hstep
      · cases hstep
      · next r _ hperform =>
          cases hstep
          rw [hperform] at hsame
          exact h.same hsame

/-- In every state that a run of loads, calls and the plugins' own code comes to, a call
of a plugin keeps to the plugin exactly if it meets the condition. -/
theorem stacks_isolated_iff (engine : Engine) (as : List Action) :
    ∀ w ∈ visits (step engine) {} as, ∀ L caller, w.states[L]? = some caller → ∀ call : ApiCall,
      Isolated engine w L caller call ↔
        respects engine w L (caller.enter call.frame) call = true := by
  intro w hw L caller hcaller call
  have hlast : LastLoaded w :=
    forall_visits_of_forall_moves LastLoaded (fun _ _ => True) (fun h _ => h.step)
      (fun h => absurd rfl h) as (fun _ _ => trivial) w hw
  refine isolated_iff hcaller (hlast ?_) call
  rintro hempty
  simp [hempty] at hcaller

/-- A level without entities, on a server. -/
def emptyLevel : Engine where
  gameWorld _ := some []
  camera := false
  createEntity container := container + 1
  characterEntity player := player + 2
  vehicleEntity player := player + 3
  entityBus entity := entity + 4
  readProperty _ _ := none
  nativeType _ := none

/-- A plugin that has a data container. -/
def withContainer : LuaState where
  realm := .server
  objects := [{ content := .userdata [7], metatable := some "DataContainer" }]
  frame := leftOnStack

/-- Two plugins are loaded, and one of them comes by a data container. -/
def containerRun (L : Nat) : List Action :=
  [.load .server, .load .server, .lua L withContainer]

/-- The first plugin creates an entity: the wrapper is on the stack of the second one. -/
theorem stacks_not_isolated :
    ¬ ∀ (engine : Engine) (as : List Action), ∀ w ∈ visits (step engine) {} as, ∀ L caller,
      w.states[L]? = some caller → ∀ call : ApiCall, Isolated engine w L caller call := by
  intro h
  have hisolated := h emptyLevel (containerRun 0)
    { states := [withContainer, { realm := .server, frame := leftOnStack }], sLua := some 1 }
    (by decide) 0 withContainer rfl (.create [.object 0])
  exact absurd (hisolated.others 1 (by decide)) (by decide)

theorem stacks_isolated_second :
    Isolated emptyLevel
      { states := [{ realm := .server, frame := leftOnStack }, withContainer], sLua := some 1 } 1
      withContainer (.create [.object 0]) :=
  (stacks_isolated_iff emptyLevel (containerRun 1)
    { states := [{ realm := .server, frame := leftOnStack }, withContainer], sLua := some 1 }
    (by decide) 1 withContainer rfl (.create [.object 0])).mpr (by decide)

end

end Kyber.Script.Stacks
