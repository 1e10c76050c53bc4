import Mathlib.Data.List.Basic
import Mathlib.Tactic.Ring

/-!
# JSON documents as `encoding/json` writes and reads them

A document is its tree: printing a tree and parsing the text gives the tree back,
and nothing here looks below that, with one exception. A `json.RawMessage` is the
text of a value, and a program that cuts it up sees how the value was written, so
`Json.text` is the compact text that the encoder writes, with its escapes.

Reading is into Go's types. A `null` leaves a value as it is, a slice or a pointer
nil; the fields of a struct are found up to case; and of two fields with one key
the last one counts.
-/

namespace Kyber.Lib

inductive Json
  | null
  | bool (b : Bool)
  | num (n : Int)
  | str (s : String)
  | arr (items : List Json)
  | obj (fields : List (String × Json))

inductive JsonError
  /-- `json.UnmarshalTypeError` -/
  | unmarshalType
  | errorf (text : String)
  /-- a run-time panic: a nil pointer, an index out of range -/
  | panic
  deriving DecidableEq, Repr

namespace Json

/-! ## The text of a document -/

/-- `htmlSafeSet`, and past it all of Unicode but the two line separators. -/
def htmlSafe (c : Char) : Bool :=
  0x20 ≤ c.toNat && c ∉ ['"', '\\', '<', '>', '&', '\u2028', '\u2029']

def hexDigit (n : Nat) : Char := Nat.digitChar (n % 16)

/-- `appendString` at one rune. -/
def escapeRune (c : Char) : List Char :=
  if htmlSafe c then [c]
  else if c = '"' ∨ c = '\\' then ['\\', c]
  else if c = '\x08' then ['\\', 'b']
  else if c = '\x0c' then ['\\', 'f']
  else if c = '\n' then ['\\', 'n']
  else if c = '\r' then ['\\', 'r']
  else if c = '\t' then ['\\', 't']
  else if c.toNat < 0x80 then
    ['\\', 'u', '0', '0', hexDigit (c.toNat / 16), hexDigit c.toNat]
  else ['\\', 'u', '2', '0', '2', hexDigit c.toNat]

def escape (s : String) : List Char := s.toList.flatMap escapeRune

/-- A string with its quotes. -/
def quote (s : String) : List Char := '"' :: (escape s ++ ['"'])

mutual

def text : Json → List Char
  | .null => ['n', 'u', 'l', 'l']
  | .bool true => ['t', 'r', 'u', 'e']
  | .bool false => ['f', 'a', 'l', 's', 'e']
  | .num n => (toString n).toList
  | .str s => quote s
  | .arr items => '[' :: (itemsText items ++ [']'])
  | .obj fields => '\x7b' :: (fieldsText fields ++ ['\x7d'])

def itemsText : List Json → List Char
  | [] => []
  | item :: items => item.text ++ if items.isEmpty then [] else ',' :: itemsText items

def fieldsText : List (String × Json) → List Char
  | [] => []
  | field :: fields =>
      fieldText field ++ if fields.isEmpty then [] else ',' :: fieldsText fields

def fieldText : String × Json → List Char
  | (key, value) => quote key ++ ':' :: value.text

end

/-! ## Reading -/

def toStr (old : String) : Json → Except JsonError String
  | .str s => .ok s
  | .null => .ok old
  | _ => .error .unmarshalType

def toBool (old : Bool) : Json → Except JsonError Bool
  | .bool b => .ok b
  | .null => .ok old
  | _ => .error .unmarshalType

def toUInt32 (old : UInt32) : Json → Except JsonError UInt32
  | .num n =>
      if 0 ≤ n ∧ n < 2 ^ 32 then .ok (UInt32.ofNat n.toNat) else .error .unmarshalType
  | .null => .ok old
  | _ => .error .unmarshalType

/-- A slice, none when it is nil. -/
def toSlice {α : Type} (read : Json → Except JsonError α) :
    Json → Except JsonError (Option (List α))
  | .arr items => do return some (← items.mapM read)
  | .null => .ok none
  | _ => .error .unmarshalType

/-- A pointer, none when it is nil. -/
def toPtr {α : Type} (read : Json → Except JsonError α) : Json → Except JsonError (Option α)
  | .null => .ok none
  | value => do return some (← read value)

/-- A `map[string]json.RawMessage`: its fields in the order of the document. -/
def toMap : Json → Except JsonError (List (String × Json))
  | .obj fields => .ok fields
  | .null => .ok []
  | _ => .error .unmarshalType

/-- What a map that was filled in this order has at a key. -/
def get? (raw : List (String × Json)) (key : String) : Option Json := raw.reverse.lookup key

/-- `foldRune`, as far as it meets ASCII. -/
def foldRune (c : Char) : Char :=
  if c = '\u017f' then 'S' else if c = '\u212a' then 'K' else c.toUpper

def foldName (key : String) : String := String.ofList (key.toList.map foldRune)

/-- A struct, field by field; `set` is given the folded name. -/
def toStruct {σ : Type} (set : σ → String → Json → Except JsonError σ) (zero : σ) :
    Json → Except JsonError σ
  | .obj fields => fields.foldlM (fun s field => set s (foldName field.1) field.2) zero
  | .null => .ok zero
  | _ => .error .unmarshalType

/-- `xs[i]` of a slice. -/
def index {α : Type} (xs : Option (List α)) (i : Nat) : Except JsonError α :=
  match (xs.getD [])[i]? with
  | some x => .ok x
  | none => .error .panic

/-! ## What is read back -/

theorem ok_bind {α β : Type} (a : α) (f : α → Except JsonError β) :
    ((.ok a : Except JsonError α) >>= f) = f a := by
  simp only [bind, Except.bind]

/-- A rune that is escaped takes two characters at least. -/
theorem two_le_length_escapeRune {c : Char} (h : htmlSafe c = false) :
    2 ≤ (escapeRune c).length := by
  simp only [escapeRune, h, Bool.false_eq_true, if_false]
  split_ifs <;> simp

theorem length_flatMap_escapeRune (cs : List Char) :
    cs.length ≤ (cs.flatMap escapeRune).length := by
  induction cs with
  | nil => simp
  | cons c cs ih =>
      have hc : 1 ≤ (escapeRune c).length := by
        cases hsafe : htmlSafe c with
        | true => simp [escapeRune, hsafe]
        | false => exact Nat.le_trans (by omega) (two_le_length_escapeRune hsafe)
      simp only [List.flatMap_cons, List.length_append, List.length_cons]
      omega

/-- The escaped text is the string itself just when nothing in it is escaped. -/
theorem flatMap_escapeRune_eq_iff (cs : List Char) :
    cs.flatMap escapeRune = cs ↔ ∀ c ∈ cs, htmlSafe c = true := by
  induction cs with
  | nil => simp
  | cons c cs ih =>
      rw [List.flatMap_cons, List.forall_mem_cons, ← ih]
      cases hsafe : htmlSafe c with
      | true => simp [escapeRune, hsafe]
      | false =>
          -- An escaped rune makes the text longer than the string.
          have hc := two_le_length_escapeRune hsafe
          have hcs := length_flatMap_escapeRune cs
          constructor
          · intro h
            have hlen := congrArg List.length h
            simp only [List.length_append, List.length_cons] at hlen
            omega
          · rintro ⟨h, -⟩
            cases h

theorem toUInt32_toNat (old n : UInt32) : toUInt32 old (.num n.toNat) = .ok n := by
  have hlt : n.toNat < 2 ^ 32 := n.toNat_lt
  have hbound : (0 : Int) ≤ n.toNat ∧ (n.toNat : Int) < 2 ^ 32 := by omega
  simp only [toUInt32, hbound, and_self, if_true, Int.toNat_natCast, UInt32.ofNat_toNat]

/-- What every element is read back from, a slice of them is. -/
theorem toSlice_map {α : Type} {read : Json → Except JsonError α} {write : α → Json}
    (h : ∀ a, read (write a) = .ok a) (as : List α) :
    toSlice read (.arr (as.map write)) = .ok (some as) := by
  have hmap : (as.map write).mapM read = .ok as := by
    induction as with
    | nil => rfl
    | cons a as ih =>
        rw [List.map_cons, List.mapM_cons, h, ih]
        rfl
  simp only [toSlice, hmap]
  rfl

@[simp] theorem index_zero {α : Type} (x : α) (xs : List α) :
    index (some (x :: xs)) 0 = .ok x :=
  rfl

@[simp] theorem index_succ {α : Type} (x : α) (xs : List α) (i : Nat) :
    index (some (x :: xs)) (i + 1) = index (some xs) i :=
  rfl

@[simp] theorem get?_singleton (key key' : String) (value : Json) :
    get? [(key, value)] key' = if key' = key then some value else none := by
  simp only [get?, List.reverse_singleton, List.lookup_cons, List.lookup_nil]
  by_cases h : key' = key
  · simp [h]
  · simp [h, beq_eq_false_iff_ne.mpr h]

end Json

end Kyber.Lib
