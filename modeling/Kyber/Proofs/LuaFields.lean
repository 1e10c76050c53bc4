import Kyber.Lib.Runs
import Kyber.Script.LuaFields

/-!
# Fields of containers as variables

Scripts read and write fields through pointers into memory. What they see of it is a store with
one variable for each field that holds a plain value, wherever the field is: in a container, in a
value that is a field of it, in a value in that. A pointer to a value stands for the variables
in it, and storing a value copies them.

`fields_refine_store` says this for whole runs: where the objects are laid out without overlaps,
and scripts use what they have been given as what it is, the bytes answer as the variables do.
-/

namespace Kyber.Script.Fields

open Kyber.Lib Kyber.Sdk
open Containers (LuaError LuaArg setReference getDataContainer)

/-! ## Layouts -/

def classFields : ClassInfoData → List FieldInfoData
  | .root fields => fields
  | .derived fields superClass => fields ++ classFields superClass

def fieldPlace (field : FieldInfoData) : Nat × Shape :=
  (field.fieldOffset.toNat, .value field.fieldTypePtr)

/-- What there is in objects, as the types say. -/
def layout (types : Types) : Layout Shape where
  size
    | .value type => sizeOf types type
    | .object info => info.totalSize.toNat
  fields
    | .value type =>
        if (types type).basicType = .valueType then (types type).fields.map fieldPlace else []
    | .object info => (classFields info.typeInfoData).map fieldPlace

/-- The types whose values are plain. -/
def TypeCodeEnum.isPlain : TypeCodeEnum → Bool
  | .classType | .cString | .enum | .boolean | .int32 | .uint32 | .int64 | .uint64 | .float32
  | .float64 => true
  | _ => false

/-- At the address is a field with a plain value. -/
def Slot (types : Types) (objects : Objects Shape) (x : Nat) (type : UInt64) : Prop :=
  objects.At (layout types) x (.value type) ∧ (types type).basicType.isPlain = true

section

variable {types : Types} {objects : Objects Shape} {x y : Nat} {type type' : UInt64}
  {field : FieldInfoData} {key : List UInt8} {info : ClassInfo}

theorem atomic_of_isPlain (h : (types type).basicType.isPlain = true) :
    (layout types).Atomic (.value type) := by
  constructor
  · show (if _ then _ else []) = _
    rw [if_neg]
    intro hvalue
    rw [hvalue] at h
    cases h
  · show 0 < sizeOf types type
    rw [sizeOf]
    cases hcode : (types type).basicType <;> simp_all [TypeCodeEnum.isPlain]

theorem mem_of_fieldIn {fields : List FieldInfoData} (h : fieldIn fields key = some field) :
    field ∈ fields := List.mem_of_find?_eq_some h

theorem mem_of_findField {data : ClassInfoData} (h : findField key data = some field) :
    field ∈ classFields data := by
  induction data with
  | root fields => exact mem_of_fieldIn h
  | derived fields superClass ih =>
      rw [findField] at h
      rw [classFields, List.mem_append]
      split at h
      · next hfield =>
          cases h
          exact .inl (mem_of_fieldIn hfield)
      · exact .inr (ih h)

theorem mem_of_dcType {container : UInt64} (h : dcType objects container = some info) :
    (container.toNat, .object info) ∈ objects := by
  obtain ⟨ob, hob, hinfo⟩ := List.exists_of_findSome?_eq_some h
  obtain ⟨address, shape⟩ := ob
  cases shape with
  | value type => cases hinfo
  | object info' =>
      simp only [Option.ite_none_right_eq_some, Option.some.injEq] at hinfo
      obtain ⟨rfl, rfl⟩ := hinfo
      exact hob

theorem dcType_append {container : UInt64} (objects' : Objects Shape)
    (h : (dcType objects container).isSome = true) :
    dcType (objects ++ objects') container = dcType objects container := by
  obtain ⟨info, hinfo⟩ := Option.isSome_iff_exists.mp h
  rw [hinfo]
  rw [dcType] at hinfo ⊢
  rw [List.findSome?_append, hinfo, Option.some_or]

/-- The fields of a value are at their places in it. -/
theorem at_field (h : objects.At (layout types) x (.value type))
    (hvalue : (types type).basicType = .valueType) (hmem : field ∈ (types type).fields) :
    objects.At (layout types) (x + field.fieldOffset.toNat) (.value field.fieldTypePtr) := by
  refine h.field ?_
  show _ ∈ if _ then _ else _
  rw [if_pos hvalue]
  exact List.mem_map_of_mem hmem

theorem at_classField (types : Types) (h : (x, .object info) ∈ objects)
    (hmem : field ∈ classFields info.typeInfoData) :
    objects.At (layout types) (x + field.fieldOffset.toNat) (.value field.fieldTypePtr) :=
  (Objects.at_of_mem h).field (List.mem_map_of_mem (f := fieldPlace) hmem)

end

/-! ## Variables -/

structure Store where
  slots : Nat → ScriptValue
  objects : Objects Shape

/-- The field that a key is for, and where what it is a field of begins. -/
def target (types : Types) (objects : Objects Shape) (key : List UInt8) :
    ScriptValue → Option (Nat × FieldInfoData)
  | .dataContainer container => do
      let info ← dcType objects container
      let field ← findField key info.typeInfoData
      some (container.toNat, field)
  | .valueType type value => (fieldIn (types type).fields key).map fun field => (value, field)
  | _ => none

/-- What containers have that is no field. -/
def special (objects : Objects Shape) (key : List UInt8) : ScriptValue → Option ScriptValue
  | .dataContainer container =>
      if key = [73, 115] then
        some .isFunc
      else if key = [116, 121, 112, 101, 73, 110, 102, 111] then
        (dcType objects container).map fun info => .typeInfo info.address
      else
        none
  | _ => none

/-- What a variable of a plain type is set to for an argument, and none if it is not set. -/
def kept (lua : LuaApi) (code : TypeCodeEnum) (arg : ScriptValue) :
    Except LuaError (Option ScriptValue) :=
  match code with
  | .classType => (getDataContainer arg.toArg).map fun container => some (.dataContainer container)
  | .cString => (lua.checkString 3 arg).map fun bytes => some (.string (cString bytes))
  | .boolean => .ok (some (.boolean arg.toBoolean))
  | .int32 => (lua.checkInteger 3 arg).map fun i => some (.integer i.toInt32.toInt64)
  | .enum | .uint32 =>
      (lua.checkInteger 3 arg).map fun i => some (.integer i.toUInt64.toUInt32.toUInt64.toInt64)
  | .int64 | .uint64 => (lua.checkInteger 3 arg).map fun i => some (.integer i)
  | .float32 =>
      (lua.checkNumber 3 arg).map fun d => some (.number (lua.floatToNumber (lua.numberToFloat d)))
  | _ => .ok none

namespace Store

def read (types : Types) (s : Store) (x : Nat) (type : UInt64) (key : List UInt8) : ScriptValue :=
  match (types type).basicType with
  | .void | .dbObject => .string key
  | .valueType => .valueType type x
  | .array => .fbArray (types type).elementType x
  | .int8 | .uint8 | .int16 | .uint16 => .nil
  | _ => s.slots x

/-- The variables from one address on are set to those from another on. -/
def copy (s : Store) (x y n : Nat) : Store :=
  { s with slots := fun z => if x ≤ z ∧ z < x + n then s.slots (y + (z - x)) else s.slots z }

def write (lua : LuaApi) (types : Types) (s : Store) (x : Nat) (type : UInt64)
    (arg : ScriptValue) : Store × Except LuaError Unit :=
  match (types type).basicType with
  | .valueType =>
      if (types type).isBlittable then
        match getValueType arg with
        | .error error => (s, .error error)
        | .ok (type', some y) =>
            (if type' = type then s.copy x y (sizeOf types type) else s, .ok ())
        | .ok (_, none) => (s, .ok ())
      else
        (s, .ok ())
  | code =>
      match kept lua code arg with
      | .error error => (s, .error error)
      | .ok none => (s, .ok ())
      | .ok (some v) => ({ s with slots := Function.update s.slots x v }, .ok ())

def index (lua : LuaApi) (types : Types) (s : Store) (receiver key : ScriptValue) : Answer :=
  (lua.checkString 2 key).map fun bytes =>
    match special s.objects (cString bytes) receiver with
    | some v => v
    | none =>
        match target types s.objects (cString bytes) receiver with
        | none => .nil
        | some (x, field) =>
            s.read types (x + field.fieldOffset.toNat) field.fieldTypePtr bytes

def newIndex (lua : LuaApi) (types : Types) (s : Store) (receiver key arg : ScriptValue) :
    Store × Except LuaError Unit :=
  match lua.checkString 2 key with
  | .error error => (s, .error error)
  | .ok bytes =>
      match target types s.objects (cString bytes) receiver with
      | none => (s, .ok ())
      | some (x, field) =>
          s.write lua types (x + field.fieldOffset.toNat) field.fieldTypePtr arg

def step (lua : LuaApi) (types : Types) (s : Store) : Access → Store × Answer
  | .index receiver key => (s, s.index lua types receiver key)
  | .newIndex receiver key arg _ =>
      let r := s.newIndex lua types receiver key arg
      (r.1, r.2.map fun _ => .nil)
  | .create shape address _ contents =>
      ({ slots := fun x =>
          if address ≤ x ∧ x < address + (layout types).size shape then
            contents (x - address)
          else
            s.slots x
         objects := s.objects ++ [(address, shape)] }, .ok (shape.userdata address))

end Store

/-! ## What scripts have and do -/

/-- What a value points to is there, but for null containers. -/
def Known (types : Types) (objects : Objects Shape) : ScriptValue → Prop
  | .dataContainer container => container = 0 ∨ (dcType objects container).isSome = true
  | .valueType type value =>
      (types type).basicType = .valueType ∧ objects.At (layout types) value (.value type)
  | _ => True

def IsObject : ScriptValue → Prop
  | .dataContainer container => container ≠ 0
  | .valueType _ _ => True
  | _ => False

/-- A userdata that is stored is what the field is of, as far as the code relies on it. -/
def Suits (types : Types) (type : UInt64) (arg : ScriptValue) : Prop :=
  match (types type).basicType with
  | .classType =>
      ∀ first pointee, arg.toArg = .userdata first pointee → arg = .dataContainer first
  | .valueType => ∀ y, getValueType arg = .ok (type, y) → ∃ x, arg = .valueType type x
  | _ => True

/-- A new object is apart from the others, and has the contents. -/
structure Made (lua : LuaApi) (types : Types) (h : Heap) (shape : Shape) (address : Nat)
    (bytes : List UInt8) (contents : Nat → ScriptValue) : Prop where
  length_eq : bytes.length = (layout types).size shape
  sound : (layout types).Sound shape
  apart : ∀ ob ∈ h.objects,
    Apart ob.1 ((layout types).size ob.2) address ((layout types).size shape)
  value : ∀ type, shape = .value type → (types type).basicType = .valueType
  address_lt : address < 2 ^ 64
  shown : ∀ p type, (layout types).Part shape p (.value type) →
    (types type).basicType.isPlain = true →
      basicValue lua h.strings (types type).basicType
        ((bytes.drop p).take (sizeOf types type)) = some (contents p)
  known : ∀ p type, (layout types).Part shape p (.value type) →
    (types type).basicType.isPlain = true → Known types h.objects (contents p)

/-- Scripts use what they have been given, as what it is, and the arena gives what is free. -/
def Allowed (lua : LuaApi) (types : Types) (h : Heap) : Access → Prop
  | .index receiver _ => receiver ∈ h.held ∧ IsObject receiver
  | .newIndex receiver key arg copy =>
      (receiver ∈ h.held ∧ IsObject receiver) ∧ (arg.typename = "userdata" → arg ∈ h.held) ∧
        (copy ≠ 0 ∧ h.strings copy = none) ∧
          ∀ bytes x field, lua.checkString 2 key = .ok bytes →
            target types h.objects (cString bytes) receiver = some (x, field) →
              Suits types field.fieldTypePtr arg
  | .create shape address bytes contents => Made lua types h shape address bytes contents

/-- The memory shows the variables. -/
structure Shows (lua : LuaApi) (types : Types) (h : Heap) (s : Store) : Prop where
  objects : s.objects = h.objects
  sound : Objects.Sound (layout types) h.objects
  slots : ∀ x type, Slot types h.objects x type →
    basicValue lua h.strings (types type).basicType (fetch h.memory x (sizeOf types type)) =
      some (s.slots x)
  known_slots : ∀ x type, Slot types h.objects x type → Known types h.objects (s.slots x)
  known : ∀ v ∈ h.held, Known types h.objects v

section

variable {lua : LuaApi} {types : Types} {h : Heap} {s : Store} {x : Nat} {type : UInt64}
  {field : FieldInfoData} {key : List UInt8} {arg receiver v : ScriptValue}
  {objects : Objects Shape}

theorem Known.append (objects' : Objects Shape) (hv : Known types objects v) :
    Known types (objects ++ objects') v := by
  cases v with
  | dataContainer container =>
      rcases hv with hv | hv
      · exact .inl hv
      · refine .inr ?_
        rw [dcType_append objects' hv]
        exact hv
  | valueType type value =>
      obtain ⟨hvalue, ob, hob, hat⟩ := hv
      exact ⟨hvalue, ob, List.mem_append_left _ hob, hat⟩
  | _ => trivial

/-- A field that is found is in memory. -/
theorem at_target (hr : Known types objects receiver)
    (ht : target types objects key receiver = some (x, field)) :
    objects.At (layout types) (x + field.fieldOffset.toNat) (.value field.fieldTypePtr) := by
  cases receiver with
  | dataContainer container =>
      simp only [target, Option.bind_eq_bind, Option.bind_eq_some_iff, Option.some.injEq,
        Prod.mk.injEq] at ht
      obtain ⟨info, hinfo, field, hfield, rfl, rfl⟩ := ht
      exact at_classField types (mem_of_dcType hinfo) (mem_of_findField hfield)
  | valueType type value =>
      obtain ⟨field, hfield, heq⟩ := Option.map_eq_some_iff.mp ht
      cases heq
      exact at_field hr.2 hr.1 (mem_of_fieldIn hfield)
  | _ => cases ht

/-! ## Reading -/

/-- What is read is what the variable is, and refers to what there is. -/
theorem Shows.typeInfoIndex (hs : Shows lua types h s)
    (key : List UInt8)
    (hat : h.objects.At (layout types) (x + field.fieldOffset.toNat) (.value field.fieldTypePtr)) :
    typeInfoIndex lua types h x field key =
        some (s.read types (x + field.fieldOffset.toNat) field.fieldTypePtr key) ∧
      Known types h.objects
        (s.read types (x + field.fieldOffset.toNat) field.fieldTypePtr key) := by
  have hslot : (types field.fieldTypePtr).basicType.isPlain = true →
      Slot types h.objects (x + field.fieldOffset.toNat) field.fieldTypePtr := fun hp => ⟨hat, hp⟩
  rw [Fields.typeInfoIndex, Store.read]
  cases hcode : (types field.fieldTypePtr).basicType
  case void | dbObject | array | int8 | uint8 | int16 | uint16 => exact ⟨rfl, trivial⟩
  case valueType => exact ⟨rfl, hcode, hat⟩
  all_goals
    have hplain : (types field.fieldTypePtr).basicType.isPlain = true := by rw [hcode]; rfl
    have hread := hs.slots _ _ (hslot hplain)
    rw [hcode] at hread
    exact ⟨hread, hs.known_slots _ _ (hslot hplain)⟩

theorem Shows.index (hs : Shows lua types h s) (hr : Known types h.objects receiver)
    (hobj : IsObject receiver) (k : ScriptValue) :
    index lua types h k receiver = some (s.index lua types receiver k) ∧
      ∀ v, s.index lua types receiver k = .ok v → Known types h.objects v := by
  rw [Store.index, hs.objects]
  cases receiver with
  | dataContainer container =>
      rw [Fields.index, dataContainerIndex]
      cases lua.checkString 2 k with
      | error error => exact ⟨rfl, fun v hv => by cases hv⟩
      | ok bytes =>
          obtain ⟨info, hinfo⟩ := Option.isSome_iff_exists.mp (hr.resolve_left hobj)
          by_cases his : cString bytes = [73, 115]
          · simp only [his, special, if_pos, Except.map]
            exact ⟨trivial, fun v hv => by cases hv; trivial⟩
          · by_cases htype : cString bytes = [116, 121, 112, 101, 73, 110, 102, 111]
            · simp only [htype, special, hinfo, Except.map]
              exact ⟨rfl, fun v hv => by cases hv; trivial⟩
            · simp only [special, if_neg his, if_neg htype, hinfo, Option.bind_eq_bind,
                Option.bind_some, Except.map, target]
              cases hfield : findField (cString bytes) info.typeInfoData with
              | none => exact ⟨rfl, fun v hv => by cases hv; trivial⟩
              | some field =>
                  have hat := at_classField types (mem_of_dcType hinfo)
                    (mem_of_findField hfield)
                  obtain ⟨hread, hknown⟩ := hs.typeInfoIndex bytes hat
                  simp only [hread, Option.map_some, Option.bind_some]
                  exact ⟨trivial, fun v hv => by cases hv; exact hknown⟩
  | valueType type value =>
      rw [Fields.index, valueTypeIndex]
      cases lua.checkString 2 k with
      | error error => exact ⟨rfl, fun v hv => by cases hv⟩
      | ok bytes =>
          simp only [special, target, Except.map]
          cases hfield : fieldIn (types type).fields (cString bytes) with
          | none => exact ⟨rfl, fun v hv => by cases hv; trivial⟩
          | some field =>
              have hat := at_field hr.2 hr.1 (mem_of_fieldIn hfield)
              obtain ⟨hread, hknown⟩ := hs.typeInfoIndex bytes hat
              simp only [hread, Option.map_some]
              exact ⟨trivial, fun v hv => by cases hv; exact hknown⟩
  | _ => exact hobj.elim

/-! ## Writing -/

theorem basicValue_of_le {strings strings' : UInt64 → Option (List UInt8)} {code : TypeCodeEnum}
    {bytes : List UInt8} (hle : ∀ p b, strings p = some b → strings' p = some b)
    (hv : basicValue lua strings code bytes = some v) :
    basicValue lua strings' code bytes = some v := by
  cases code with
  | cString =>
      rw [basicValue] at hv ⊢
      split at hv
      · next h0 => rw [if_pos h0, hv]
      · next h0 =>
          obtain ⟨b, hb, rfl⟩ := Option.map_eq_some_iff.mp hv
          rw [if_neg h0, hle _ _ hb, Option.map_some]
  | _ => exact hv

/-- A variable is set, and the others are left. -/
theorem Shows.set (hs : Shows lua types h s) (hslot : Slot types h.objects x type)
    {bytes : List UInt8} (hlen : bytes.length = sizeOf types type)
    {strings : UInt64 → Option (List UInt8)} (hle : ∀ p b, h.strings p = some b → strings p = some b)
    (hv : basicValue lua strings (types type).basicType bytes = some v)
    (hknown : Known types h.objects v) (refCounts : RefCounts) :
    Shows lua types { h with strings, refCounts, memory := store h.memory x bytes }
      { s with slots := Function.update s.slots x v } := by
  have hcases : ∀ y type', Slot types h.objects y type' →
      Apart x bytes.length y (sizeOf types type') ∨ y = x ∧ type' = type := by
    intro y type' hslot'
    rw [hlen]
    rcases hslot.1.eq_of_atomic hs.sound hslot'.1 (atomic_of_isPlain hslot.2)
      (atomic_of_isPlain hslot'.2) with ha | ⟨hy, ht⟩
    · exact .inl ha
    · exact .inr ⟨hy, Shape.value.inj ht⟩
  have hne : ∀ y type', Slot types h.objects y type' →
      Apart x bytes.length y (sizeOf types type') → y ≠ x := by
    intro y type' hslot' ha hyx
    have hpos := (atomic_of_isPlain hslot'.2).pos
    have hpos' := (atomic_of_isPlain hslot.2).pos
    have hsize : (layout types).size (.value type') = sizeOf types type' := rfl
    have hsize' : (layout types).size (.value type) = sizeOf types type := rfl
    subst hyx
    rcases ha with ha | ha
    · omega
    · omega
  refine ⟨hs.objects, hs.sound, ?_, ?_, hs.known⟩
  · intro y type' hslot'
    rcases hcases y type' hslot' with ha | ⟨rfl, rfl⟩
    · dsimp only
      rw [fetch_store_of_apart ha, Function.update_of_ne (hne y type' hslot' ha)]
      exact basicValue_of_le hle (hs.slots y type' hslot')
    · dsimp only
      rw [← hlen, fetch_store, Function.update_self]
      exact hv
  · intro y type' hslot'
    rcases hcases y type' hslot' with ha | ⟨rfl, rfl⟩
    · dsimp only
      rw [Function.update_of_ne (hne y type' hslot' ha)]
      exact hs.known_slots y type' hslot'
    · dsimp only
      rw [Function.update_self]
      exact hknown

/-- The variables in a value are set to those in another. -/
theorem Shows.copy (hs : Shows lua types h s) (hvalue : (types type).basicType = .valueType)
    (hx : h.objects.At (layout types) x (.value type)) {y : Nat}
    (hy : h.objects.At (layout types) y (.value type)) :
    Shows lua types
      { h with memory := store h.memory x (fetch h.memory y (types type).totalSize.toNat) }
      (s.copy x y (sizeOf types type)) := by
  have hsize : sizeOf types type = (types type).totalSize.toNat := by rw [sizeOf, hvalue]
  have hcases : ∀ z type', Slot types h.objects z type' →
      Apart x (sizeOf types type) z (sizeOf types type') ∨
        ∃ q, z = x + q ∧ q + sizeOf types type' ≤ sizeOf types type ∧
          Slot types h.objects (y + q) type' := by
    intro z type' hslot
    rcases hx.cases_of_atomic hs.sound hslot.1 (atomic_of_isPlain hslot.2) with ha | ⟨q, hq, rfl⟩
    · exact .inl ha
    · exact .inr ⟨q, rfl, hq.within (hx.sound hs.sound), hy.part hq, hslot.2⟩
  have hslots : ∀ z type', Slot types h.objects z type' →
      ∃ z', Slot types h.objects z' type' ∧ (s.copy x y (sizeOf types type)).slots z = s.slots z' ∧
        fetch (store h.memory x (fetch h.memory y (types type).totalSize.toNat)) z
          (sizeOf types type') = fetch h.memory z' (sizeOf types type') := by
    intro z type' hslot
    have hpos := (atomic_of_isPlain hslot.2).pos
    have hpos' : (layout types).size (.value type') = sizeOf types type' := rfl
    rw [← hsize, Store.copy]
    rcases hcases z type' hslot with ha | ⟨q, rfl, hle, hslot'⟩
    · refine ⟨z, hslot, if_neg ?_, fetch_store_of_apart (by rwa [length_fetch])⟩
      rcases ha with ha | ha
      · omega
      · omega
    · refine ⟨y + q, hslot', ?_, fetch_store_fetch hle⟩
      dsimp only
      rw [if_pos (by omega), Nat.add_sub_cancel_left]
  refine ⟨hs.objects, hs.sound, ?_, ?_, hs.known⟩
  · intro z type' hslot
    obtain ⟨z', hslot', hz, hfetch⟩ := hslots z type' hslot
    rw [hz]
    dsimp only
    rw [hfetch]
    exact hs.slots z' type' hslot'
  · intro z type' hslot
    obtain ⟨z', hslot', hz, -⟩ := hslots z type' hslot
    rw [hz]
    exact hs.known_slots z' type' hslot'

/-- What becomes of an argument for a field that is no object, container or string. -/
inductive Written (lua : LuaApi) (types : Types) (type : UInt64) (arg : ScriptValue) : Prop
  | error (error : LuaError)
      (hbytes : basicBytes lua (types type).basicType arg = .error error)
      (hkept : kept lua (types type).basicType arg = .error error)
  | ignored (hbytes : basicBytes lua (types type).basicType arg = .ok [])
      (hkept : kept lua (types type).basicType arg = .ok none)
  | set (bytes : List UInt8) (v : ScriptValue)
      (hbytes : basicBytes lua (types type).basicType arg = .ok bytes)
      (hkept : kept lua (types type).basicType arg = .ok (some v))
      (hplain : (types type).basicType.isPlain = true) (hlen : bytes.length = sizeOf types type)
      (hvalue : ∀ strings, basicValue lua strings (types type).basicType bytes = some v)
      (hknown : ∀ objects, Known types objects v)

theorem ofNat_leNat_leBytes (n : UInt32) : UInt32.ofNat (leNat (leBytes 4 n.toNat)) = n := by
  rw [leNat_leBytes n.toNat_lt, UInt32.ofNat_toNat]

theorem ofNat_leNat_leBytes_eight (n : UInt64) : UInt64.ofNat (leNat (leBytes 8 n.toNat)) = n := by
  rw [leNat_leBytes n.toNat_lt, UInt64.ofNat_toNat]

theorem toInt32_toUInt64 (i : Int64) : i.toUInt64.toUInt32.toInt32 = i.toInt32 :=
  Int32.toBitVec_inj.mp (BitVec.signExtend_eq_setWidth_of_le i.toBitVec (by omega)).symm

/-- The numbers that are written are the ones that are read. -/
theorem written (lua : LuaApi) (types : Types) (type : UInt64) (arg : ScriptValue)
    (hvalue : (types type).basicType ≠ .valueType) (hclass : (types type).basicType ≠ .classType)
    (hstring : (types type).basicType ≠ .cString) : Written lua types type arg := by
  cases hcode : (types type).basicType
  case valueType => exact absurd hcode hvalue
  case classType => exact absurd hcode hclass
  case cString => exact absurd hcode hstring
  case void | dbObject | array | int8 | uint8 | int16 | uint16 | float64 =>
    exact .ignored (by rw [hcode]; rfl) (by rw [hcode]; rfl)
  case boolean =>
    refine .set _ (.boolean arg.toBoolean) (by rw [hcode]; rfl) (by rw [hcode]; rfl)
      (by rw [hcode]; rfl) (by rw [sizeOf, hcode]; rfl) ?_ fun _ => trivial
    intro strings
    rw [hcode, basicValue]
    cases arg.toBoolean
    · rfl
    · rfl
  case float32 =>
    cases hd : lua.checkNumber 3 arg with
    | error error =>
        exact .error error (by rw [hcode, basicBytes, hd]; rfl) (by rw [hcode, kept, hd]; rfl)
    | ok d =>
        refine .set _ (.number (lua.floatToNumber (lua.numberToFloat d)))
          (by rw [hcode, basicBytes, hd]; rfl) (by rw [hcode, kept, hd]; rfl)
          (by rw [hcode]; rfl) (by rw [sizeOf, hcode, length_leBytes]) ?_ fun _ => trivial
        intro strings
        rw [hcode]
        simp only [basicValue, ofNat_leNat_leBytes]
  case int32 =>
    cases hi : lua.checkInteger 3 arg with
    | error error =>
        exact .error error (by rw [hcode, basicBytes, hi]; rfl) (by rw [hcode, kept, hi]; rfl)
    | ok i =>
        refine .set _ (.integer i.toInt32.toInt64) (by rw [hcode, basicBytes, hi]; rfl)
          (by rw [hcode, kept, hi]; rfl) (by rw [hcode]; rfl)
          (by rw [sizeOf, hcode, length_leBytes]) ?_ fun _ => trivial
        intro strings
        rw [hcode]
        simp only [basicValue, ofNat_leNat_leBytes, toInt32_toUInt64]
  case enum | uint32 =>
    cases hi : lua.checkInteger 3 arg with
    | error error =>
        exact .error error (by rw [hcode, basicBytes, hi]; rfl) (by rw [hcode, kept, hi]; rfl)
    | ok i =>
        refine .set _ (.integer i.toUInt64.toUInt32.toUInt64.toInt64)
          (by rw [hcode, basicBytes, hi]; rfl) (by rw [hcode, kept, hi]; rfl)
          (by rw [hcode]; rfl) (by rw [sizeOf, hcode, length_leBytes]) ?_ fun _ => trivial
        intro strings
        rw [hcode]
        simp only [basicValue, ofNat_leNat_leBytes]
  case int64 | uint64 =>
    cases hi : lua.checkInteger 3 arg with
    | error error =>
        exact .error error (by rw [hcode, basicBytes, hi]; rfl) (by rw [hcode, kept, hi]; rfl)
    | ok i =>
        refine .set _ (.integer i) (by rw [hcode, basicBytes, hi]; rfl)
          (by rw [hcode, kept, hi]; rfl) (by rw [hcode]; rfl)
          (by rw [sizeOf, hcode, length_leBytes]) ?_ fun _ => trivial
        intro strings
        rw [hcode]
        simp only [basicValue, ofNat_leNat_leBytes_eight]
        rfl

section

variable {copy : UInt64} (hvalue : (types field.fieldTypePtr).basicType ≠ .valueType)
  (hclass : (types field.fieldTypePtr).basicType ≠ .classType)
  (hstring : (types field.fieldTypePtr).basicType ≠ .cString)
include hvalue hclass hstring

theorem typeInfoNewIndex_of_error {error : LuaError}
    (h' : basicBytes lua (types field.fieldTypePtr).basicType arg = .error error) :
    typeInfoNewIndex lua types h x field arg copy = some (h, .error error) := by
  rw [typeInfoNewIndex]
  split
  · next hcode => exact absurd hcode hvalue
  · next hcode => exact absurd hcode hclass
  · next hcode => exact absurd hcode hstring
  · rw [h']

theorem typeInfoNewIndex_of_ok {bytes : List UInt8}
    (h' : basicBytes lua (types field.fieldTypePtr).basicType arg = .ok bytes) :
    typeInfoNewIndex lua types h x field arg copy =
      some ({ h with memory := store h.memory (x + field.fieldOffset.toNat) bytes }, .ok ()) := by
  rw [typeInfoNewIndex]
  split
  · next hcode => exact absurd hcode hvalue
  · next hcode => exact absurd hcode hclass
  · next hcode => exact absurd hcode hstring
  · rw [h']

end

theorem write_of_error {error : LuaError} (hvalue : (types type).basicType ≠ .valueType)
    (hkept : kept lua (types type).basicType arg = .error error) :
    s.write lua types x type arg = (s, .error error) := by
  rw [Store.write]
  split
  · next hcode => exact absurd hcode hvalue
  · rw [hkept]

theorem write_of_ok {v : Option ScriptValue} (hvalue : (types type).basicType ≠ .valueType)
    (hkept : kept lua (types type).basicType arg = .ok v) :
    s.write lua types x type arg =
      ({ s with slots := v.elim s.slots (Function.update s.slots x) }, .ok ()) := by
  rw [Store.write]
  split
  · next hcode => exact absurd hcode hvalue
  · rw [hkept]
    cases v with
    | none => rfl
    | some v => rfl

/-- What is stored is what the variable is set to. -/
theorem Shows.typeInfoNewIndex (hs : Shows lua types h s) {copy : UInt64}
    (hat : h.objects.At (layout types) (x + field.fieldOffset.toNat) (.value field.fieldTypePtr))
    (harg : Known types h.objects arg) (hsuits : Suits types field.fieldTypePtr arg)
    (hcopy : copy ≠ 0 ∧ h.strings copy = none) :
    ∃ h', typeInfoNewIndex lua types h x field arg copy = some (h',
        (s.write lua types (x + field.fieldOffset.toNat) field.fieldTypePtr arg).2) ∧
      Shows lua types h'
        (s.write lua types (x + field.fieldOffset.toNat) field.fieldTypePtr arg).1 := by
  rw [Fields.typeInfoNewIndex, Store.write]
  by_cases hvalue : (types field.fieldTypePtr).basicType = .valueType
  · simp only [hvalue]
    rw [Suits, hvalue] at hsuits
    by_cases hblit : (types field.fieldTypePtr).isBlittable = true
    · simp only [if_pos hblit]
      cases hbind : getValueType arg with
      | error error => exact ⟨h, rfl, hs⟩
      | ok bind =>
          obtain ⟨type', source⟩ := bind
          by_cases htype : type' = field.fieldTypePtr
          · subst htype
            obtain ⟨y, rfl⟩ := hsuits source hbind
            cases hbind
            simp only [ne_eq, not_true, if_false, if_true, Option.map_some]
            exact ⟨_, rfl, hs.copy hvalue hat harg.2⟩
          · simp only [ne_eq, htype, not_false_eq_true, if_true]
            cases source with
            | none => exact ⟨h, rfl, hs⟩
            | some source =>
                dsimp only
                rw [if_neg htype]
                exact ⟨h, rfl, hs⟩
    · simp only [if_neg hblit]
      exact ⟨h, rfl, hs⟩
  · by_cases hclass : (types field.fieldTypePtr).basicType = .classType
    · have hslot : Slot types h.objects (x + field.fieldOffset.toNat) field.fieldTypePtr :=
        ⟨hat, by rw [hclass]; rfl⟩
      have hsize : sizeOf types field.fieldTypePtr = 8 := by rw [sizeOf, hclass]
      rw [Suits, hclass] at hsuits
      simp only [hclass, kept, setReference]
      cases hcontainer : getDataContainer arg.toArg with
      | error error => exact ⟨_, rfl, ⟨hs.objects, hs.sound, hs.slots, hs.known_slots, hs.known⟩⟩
      | ok container =>
          have hknown : Known types h.objects (.dataContainer container) := by
            cases harg' : arg.toArg with
            | nil =>
                rw [harg'] at hcontainer
                cases hcontainer
                exact .inl rfl
            | userdata first pointee =>
                rw [harg'] at hcontainer
                cases hcontainer
                exact hsuits _ _ harg' ▸ harg
            | nullUserdata =>
                rw [harg'] at hcontainer
                cases hcontainer
            | other typename =>
                rw [harg'] at hcontainer
                cases hcontainer
          refine ⟨_, rfl, hs.set hslot (by rw [hsize, length_leBytes]) (fun _ _ hp => hp) ?_
            hknown _⟩
          rw [hclass]
          simp only [basicValue, ofNat_leNat_leBytes_eight]
    · by_cases hstring : (types field.fieldTypePtr).basicType = .cString
      · have hslot : Slot types h.objects (x + field.fieldOffset.toNat) field.fieldTypePtr :=
          ⟨hat, by rw [hstring]; rfl⟩
        have hsize : sizeOf types field.fieldTypePtr = 8 := by rw [sizeOf, hstring]
        simp only [hstring, kept]
        cases lua.checkString 3 arg with
        | error error => exact ⟨h, rfl, hs⟩
        | ok bytes =>
            have hfree : ¬(copy = 0 ∨ (h.strings copy).isSome = true) := by
              rw [hcopy.2]
              simp [hcopy.1]
            simp only [if_neg hfree, Except.map]
            have hknown : Known types h.objects (.string (cString bytes)) := trivial
            refine ⟨_, rfl, hs.set hslot (by rw [hsize, length_leBytes]) ?_ ?_ hknown _⟩
            · intro p b hp
              have hne : p ≠ copy := by
                intro hpc
                rw [hpc, hcopy.2] at hp
                cases hp
              rw [Function.update_of_ne hne]
              exact hp
            · rw [hstring]
              simp only [basicValue, ofNat_leNat_leBytes_eight, if_neg hcopy.1,
                Function.update_self, Option.map_some]
      · rw [← Fields.typeInfoNewIndex, ← Store.write]
        cases written lua types field.fieldTypePtr arg hvalue hclass hstring with
        | error error hbytes hkept =>
            rw [typeInfoNewIndex_of_error hvalue hclass hstring hbytes,
              write_of_error hvalue hkept]
            exact ⟨h, rfl, hs⟩
        | ignored hbytes hkept =>
            rw [typeInfoNewIndex_of_ok hvalue hclass hstring hbytes, write_of_ok hvalue hkept,
              store_nil]
            exact ⟨h, rfl, hs⟩
        | set bytes v hbytes hkept hplain hlen hv hknown =>
            rw [typeInfoNewIndex_of_ok hvalue hclass hstring hbytes, write_of_ok hvalue hkept]
            exact ⟨_, rfl, hs.set ⟨hat, hplain⟩ hlen (fun _ _ hp => hp) (hv _) (hknown _) _⟩

theorem Shows.newIndex (hs : Shows lua types h s) {copy : UInt64}
    (hr : Known types h.objects receiver) (hobj : IsObject receiver)
    (harg : Known types h.objects arg) (hcopy : copy ≠ 0 ∧ h.strings copy = none)
    {k : ScriptValue} (hsuits : ∀ bytes x field, lua.checkString 2 k = .ok bytes →
      target types h.objects (cString bytes) receiver = some (x, field) →
        Suits types field.fieldTypePtr arg) :
    ∃ h', newIndex lua types h k arg copy receiver =
        some (h', (s.newIndex lua types receiver k arg).2) ∧
      Shows lua types h' (s.newIndex lua types receiver k arg).1 := by
  rw [Store.newIndex, hs.objects]
  cases receiver with
  | dataContainer container =>
      rw [Fields.newIndex, dataContainerNewIndex]
      cases hkey : lua.checkString 2 k with
      | error error => exact ⟨h, rfl, hs⟩
      | ok bytes =>
          obtain ⟨info, hinfo⟩ := Option.isSome_iff_exists.mp (hr.resolve_left hobj)
          have htarget : ∀ field, findField (cString bytes) info.typeInfoData = some field →
              target types h.objects (cString bytes) (.dataContainer container) =
                some (container.toNat, field) := by
            intro field hfield
            simp only [target, hinfo, hfield, Option.bind_eq_bind, Option.bind_some]
          cases hfield : findField (cString bytes) info.typeInfoData with
          | none =>
              simp only [target, hinfo, hfield, Option.bind_eq_bind, Option.bind_some,
                Option.bind_none]
              exact ⟨h, rfl, hs⟩
          | some field =>
              have hat := at_target hr (htarget field hfield)
              have hfits := hsuits bytes _ field hkey (htarget field hfield)
              simp only [htarget field hfield, hinfo, hfield, Option.bind_eq_bind,
                Option.bind_some]
              exact hs.typeInfoNewIndex hat harg hfits hcopy
  | valueType type value =>
      rw [Fields.newIndex, valueTypeNewIndex]
      cases hkey : lua.checkString 2 k with
      | error error => exact ⟨h, rfl, hs⟩
      | ok bytes =>
          have htarget : ∀ field, fieldIn (types type).fields (cString bytes) = some field →
              target types h.objects (cString bytes) (.valueType type value) =
                some (value, field) := by
            intro field hfield
            rw [target, hfield, Option.map_some]
          cases hfield : fieldIn (types type).fields (cString bytes) with
          | none =>
              simp only [target, hfield, Option.map_none]
              exact ⟨h, rfl, hs⟩
          | some field =>
              have hat := at_target hr (htarget field hfield)
              have hfits := hsuits bytes _ field hkey (htarget field hfield)
              simp only [htarget field hfield, hfield]
              exact hs.typeInfoNewIndex hat harg hfits hcopy
  | _ => exact hobj.elim

/-! ## Runs -/

theorem Shows.give (hs : Shows lua types h s) {answer : Answer}
    (hknown : ∀ v, answer = .ok v → Known types h.objects v) :
    Shows lua types (h.give answer) s := by
  cases answer with
  | error error => exact hs
  | ok v =>
      refine ⟨hs.objects, hs.sound, hs.slots, hs.known_slots, fun v' hv' => ?_⟩
      rcases List.mem_cons.mp hv' with rfl | hv'
      · exact hknown v' rfl
      · exact hs.known v' hv'

/-- A new object adds its variables. -/
theorem Shows.create (hs : Shows lua types h s) {shape : Shape} {address : Nat}
    {bytes : List UInt8} {contents : Nat → ScriptValue}
    (hmade : Made lua types h shape address bytes contents) (refCounts : RefCounts) :
    Shows lua types
      { h with
        memory := store h.memory address bytes
        refCounts
        objects := h.objects ++ [(address, shape)] }
      (s.step lua types (.create shape address bytes contents)).1 := by
  have hcases : ∀ x type, Slot types (h.objects ++ [(address, shape)]) x type →
      (Slot types h.objects x type ∧ Apart address bytes.length x (sizeOf types type)) ∨
        ∃ p, x = address + p ∧ (layout types).Part shape p (.value type) ∧
          (types type).basicType.isPlain = true ∧ p + sizeOf types type ≤ bytes.length := by
    intro x type hslot
    obtain ⟨⟨ob, hob, p, hpart, rfl⟩, hplain⟩ := hslot
    rcases List.mem_append.mp hob with hob | hob
    · refine .inl ⟨⟨⟨ob, hob, p, hpart, rfl⟩, hplain⟩, ?_⟩
      have hwithin := hpart.within (hs.sound.sound ob hob)
      have hsize : (layout types).size (.value type) = sizeOf types type := rfl
      rw [hmade.length_eq]
      rcases hmade.apart ob hob with ha | ha
      · exact .inr (by omega)
      · exact .inl (by omega)
    · rw [List.mem_singleton.mp hob] at hpart ⊢
      refine .inr ⟨p, rfl, hpart, hplain, ?_⟩
      rw [hmade.length_eq]
      exact hpart.within hmade.sound
  have hold : ∀ x type, Slot types h.objects x type →
      Apart address bytes.length x (sizeOf types type) →
        (s.step lua types (.create shape address bytes contents)).1.slots x = s.slots x := by
    intro x type hslot ha
    have hpos := (atomic_of_isPlain hslot.2).pos
    have hsize : (layout types).size (.value type) = sizeOf types type := rfl
    refine if_neg ?_
    rw [← hmade.length_eq]
    rcases ha with ha | ha
    · omega
    · omega
  have hnew : ∀ p type, (types type).basicType.isPlain = true →
      p + sizeOf types type ≤ bytes.length →
        (s.step lua types (.create shape address bytes contents)).1.slots (address + p) =
          contents p := by
    intro p type hplain hle
    have hpos := (atomic_of_isPlain hplain).pos
    have hsize : (layout types).size (.value type) = sizeOf types type := rfl
    rw [Store.step]
    dsimp only
    rw [← hmade.length_eq, if_pos (by omega), Nat.add_sub_cancel_left]
  refine ⟨?_, ⟨?_, ?_⟩, ?_, ?_, fun v hv => (hs.known v hv).append _⟩
  · rw [Store.step]
    dsimp only
    rw [hs.objects]
  · intro ob hob
    rcases List.mem_append.mp hob with hob | hob
    · exact hs.sound.sound ob hob
    · rw [List.mem_singleton.mp hob]
      exact hmade.sound
  · refine List.pairwise_append.mpr ⟨hs.sound.apart, List.pairwise_singleton _ _, ?_⟩
    intro ob hob ob' hob'
    rw [List.mem_singleton.mp hob']
    exact hmade.apart ob hob
  · intro x type hslot
    rcases hcases x type hslot with ⟨hslot', ha⟩ | ⟨p, rfl, hpart, hplain, hle⟩
    · rw [hold x type hslot' ha]
      dsimp only
      rw [fetch_store_of_apart ha]
      exact hs.slots x type hslot'
    · rw [hnew p type hplain hle]
      dsimp only
      rw [fetch_store_add hle]
      exact hmade.shown p type hpart hplain
  · intro x type hslot
    rcases hcases x type hslot with ⟨hslot', ha⟩ | ⟨p, rfl, hpart, hplain, hle⟩
    · rw [hold x type hslot' ha]
      exact (hs.known_slots x type hslot').append _
    · rw [hnew p type hplain hle]
      exact (hmade.known p type hpart hplain).append _

theorem known_of_typename (hs : Shows lua types h s)
    (harg : arg.typename = "userdata" → arg ∈ h.held) : Known types h.objects arg := by
  cases arg with
  | dataContainer container => exact hs.known _ (harg rfl)
  | valueType type value => exact hs.known _ (harg rfl)
  | _ => trivial

/-- A new object is there. -/
theorem known_userdata {shape : Shape} {address : Nat} {bytes : List UInt8}
    {contents : Nat → ScriptValue} (hmade : Made lua types h shape address bytes contents) :
    Known types (h.objects ++ [(address, shape)]) (shape.userdata address) := by
  cases shape with
  | value type =>
      exact ⟨hmade.value type rfl,
        Objects.at_of_mem (List.mem_append_right _ (List.mem_singleton_self _))⟩
  | object info =>
      refine .inr ?_
      rw [dcType, List.findSome?_isSome_iff]
      refine ⟨_, List.mem_append_right _ (List.mem_singleton_self _), ?_⟩
      have haddress : (UInt64.ofNat address).toNat = address :=
        UInt64.toNat_ofNat_of_lt' hmade.address_lt
      simp only [haddress, if_true, Option.isSome_some]

theorem Shows.step (hs : Shows lua types h s) {a : Access} (ha : Allowed lua types h a) :
    ∃ h', step lua types h a = some (h', (s.step lua types a).2) ∧
      Shows lua types h' (s.step lua types a).1 := by
  cases a with
  | index receiver key =>
      obtain ⟨hread, hknown⟩ := hs.index (hs.known _ ha.1) ha.2 key
      rw [Fields.step, hread]
      exact ⟨_, rfl, hs.give hknown⟩
  | newIndex receiver key arg copy =>
      obtain ⟨⟨hheld, hobj⟩, harg, hcopy, hsuits⟩ := ha
      obtain ⟨h', hwrite, hs'⟩ := hs.newIndex (hs.known _ hheld) hobj (known_of_typename hs harg)
        hcopy hsuits
      rw [Fields.step, hwrite]
      exact ⟨_, rfl, hs'⟩
  | create shape address bytes contents =>
      refine ⟨_, rfl, (hs.create ha _).give ?_⟩
      intro v hv
      cases hv
      exact known_userdata ha

end

/-! ## A script -/

/-- A number is in a value, which is in a container. -/
def statsTypes : Types := fun type =>
  if type = 1 then
    { basicType := .valueType, isBlittable := true, totalSize := 4, fields := [⟨[104, 112], 0, 2⟩] }
  else if type = 2 then
    { basicType := .int32 }
  else
    {}

def pilotInfo : ClassInfo := ⟨3, 32, .root [⟨[115, 116, 97, 116, 115], 24, 1⟩]⟩

/-- The library, where it is given strings and integers. -/
def plainLua : LuaApi where
  checkString
    | _, .string bytes => .ok bytes
    | arg, v => .error (.argument arg ("string expected, got " ++ v.typename))
  checkInteger
    | _, .integer i => .ok i
    | arg, v => .error (.argument arg ("number expected, got " ++ v.typename))
  checkNumber arg v := .error (.argument arg ("number expected, got " ++ v.typename))
  floatToNumber _ := 0
  numberToFloat _ := 0

def pilotHeap : Heap where
  memory _ := 0
  strings _ := none
  refCounts _ := 0
  objects := [(16, .object pilotInfo)]
  held := [.dataContainer 16]

/-- A new value is filled and stored in the container, then changed; what was stored is read. -/
def statsScript : List Access :=
  [.create (.value 1) 64 [0, 0, 0, 0] fun _ => .integer 0,
    .newIndex (.valueType 1 64) (.string [72, 80]) (.integer (2 ^ 32 + 7)) 96,
    .newIndex (.dataContainer 16) (.string [115, 116, 97, 116, 115]) (.valueType 1 64) 96,
    .newIndex (.valueType 1 64) (.string [104, 112]) (.integer 8) 96,
    .index (.dataContainer 16) (.string [83, 116, 97, 116, 115]),
    .index (.valueType 1 40) (.string [104, 112])]

example : (respond (step plainLua statsTypes) pilotHeap statsScript).map Prod.snd =
    some [.ok (.valueType 1 64), .ok .nil, .ok .nil, .ok .nil, .ok (.valueType 1 40),
      .ok (.integer 7)] := by decide

theorem part_number {p : Nat} {t : Shape} (h : (layout statsTypes).Part (.value 2) p t) :
    p = 0 ∧ t = .value 2 := h.eq_of_atomic ⟨rfl, by decide⟩

theorem part_stats {p : Nat} {t : Shape} (h : (layout statsTypes).Part (.value 1) p t) :
    p = 0 ∧ (t = .value 1 ∨ t = .value 2) := by
  cases h with
  | refl => exact ⟨rfl, .inl rfl⟩
  | field hmem hpart =>
      cases List.mem_singleton.mp hmem
      obtain ⟨rfl, rfl⟩ := part_number hpart
      exact ⟨rfl, .inr rfl⟩

theorem part_pilot {p : Nat} {t : UInt64}
    (h : (layout statsTypes).Part (.object pilotInfo) p (.value t)) : p = 24 ∧ (t = 1 ∨ t = 2) := by
  cases h with
  | field hmem hpart =>
      cases List.mem_singleton.mp hmem
      obtain ⟨rfl, ht⟩ := part_stats hpart
      exact ⟨rfl, ht.imp Shape.value.inj Shape.value.inj⟩

theorem sound_stats : (layout statsTypes).Sound (.value 1) := by
  refine Layout.sound_of_fields ⟨?_, List.pairwise_singleton _ _⟩ ?_
  · intro f hf
    cases List.mem_singleton.mp hf
    decide
  · intro f hf
    cases List.mem_singleton.mp hf
    refine Layout.sound_of_fields ⟨?_, .nil⟩ ?_
    · exact fun f hf => absurd hf List.not_mem_nil
    · exact fun f hf => absurd hf List.not_mem_nil

theorem sound_pilot : (layout statsTypes).Sound (.object pilotInfo) := by
  refine Layout.sound_of_fields ⟨?_, List.pairwise_singleton _ _⟩ ?_
  · intro f hf
    cases List.mem_singleton.mp hf
    decide
  · intro f hf
    cases List.mem_singleton.mp hf
    exact sound_stats

theorem pilotHeap_shows :
    Shows plainLua statsTypes pilotHeap ⟨fun _ => .integer 0, pilotHeap.objects⟩ := by
  have hslot : ∀ x type, Slot statsTypes pilotHeap.objects x type → type = 2 := by
    intro x type hslot
    obtain ⟨⟨ob, hob, p, hpart, -⟩, hplain⟩ := hslot
    rw [List.mem_singleton.mp hob] at hpart
    rcases (part_pilot hpart).2 with rfl | rfl
    · cases hplain
    · rfl
  refine ⟨rfl, ⟨?_, List.pairwise_singleton _ _⟩, ?_, fun _ _ _ => trivial, ?_⟩
  · intro ob hob
    rw [List.mem_singleton.mp hob]
    exact sound_pilot
  · intro x type h
    rw [hslot x type h]
    rfl
  · intro v hv
    rw [List.mem_singleton.mp hv]
    exact .inr rfl

theorem stats_made : Made plainLua statsTypes pilotHeap (.value 1) 64 [0, 0, 0, 0]
    fun _ => .integer 0 where
  length_eq := rfl
  sound := sound_stats
  apart ob hob := by
    rw [List.mem_singleton.mp hob]
    exact .inl (by decide)
  value type h := by
    cases h
    rfl
  address_lt := by decide
  shown p type hpart hplain := by
    obtain ⟨rfl, ht⟩ := part_stats hpart
    rcases ht with ht | ht
    · cases ht
      cases hplain
    · cases ht
      rfl
  known _ _ _ _ := trivial

end Kyber.Script.Fields
