import Kyber.Lib.Utf16

/-!
# JSON as text

Documents and their text in code units, as `dart:convert` writes and reads them. The
encoder writes no blanks. Of a string it escapes quotes, backslashes and control
characters, and every surrogate that is not part of a pair, so that its text is
well-formed whatever the string is. The decoder reads any document; of two members
with one key the last one counts. A number is kept as it is spelled.

Fuel for the decoder is twice the length of the text, and a document without numbers
whose maps have distinct keys is read back from its text.
-/

namespace Kyber.Lib.JsonText

open Utf16

inductive Document
  | null
  | bool (b : Bool)
  | number (lexeme : List UInt16)
  | string (s : List UInt16)
  | list (items : List Document)
  | map (members : List (List UInt16 × Document))

abbrev quote : UInt16 := 0x22
abbrev comma : UInt16 := 0x2c
abbrev colon : UInt16 := 0x3a
abbrev openBracket : UInt16 := 0x5b
abbrev backslash : UInt16 := 0x5c
abbrev closeBracket : UInt16 := 0x5d
abbrev letterU : UInt16 := 0x75
abbrev openBrace : UInt16 := 0x7b
abbrev closeBrace : UInt16 := 0x7d

/-- `true`, `false` and `null` -/
def trueText : List UInt16 := [0x74, 0x72, 0x75, 0x65]
def falseText : List UInt16 := [0x66, 0x61, 0x6c, 0x73, 0x65]
def nullText : List UInt16 := [0x6e, 0x75, 0x6c, 0x6c]

/-! ## Encoding -/

def hexDigit (n : Nat) : UInt16 := UInt16.ofNat (if n < 10 then 0x30 + n else 0x57 + n)

def unicodeEscape (u : UInt16) : List UInt16 :=
  [backslash, letterU, hexDigit (u.toNat / 4096), hexDigit (u.toNat / 256 % 16),
    hexDigit (u.toNat / 16 % 16), hexDigit (u.toNat % 16)]

/-- A code unit that is not part of a pair. -/
def escapeUnit (u : UInt16) : List UInt16 :=
  if u = quote ∨ u = backslash then [backslash, u]
  else if u = 0x08 then [backslash, 0x62]
  else if u = 0x09 then [backslash, 0x74]
  else if u = 0x0a then [backslash, 0x6e]
  else if u = 0x0c then [backslash, 0x66]
  else if u = 0x0d then [backslash, 0x72]
  else if u.toNat < 0x20 ∨ isSurrogate u then unicodeEscape u
  else [u]

def escape : List UInt16 → List UInt16
  | [] => []
  | [u] => escapeUnit u
  | u :: v :: rest =>
      if isLead u && isTrail v then u :: v :: escape rest else escapeUnit u ++ escape (v :: rest)

def quoted (s : List UInt16) : List UInt16 := quote :: (escape s ++ [quote])

mutual

def encode : Document → List UInt16
  | .null => nullText
  | .bool true => trueText
  | .bool false => falseText
  | .number lexeme => lexeme
  | .string s => quoted s
  | .list items => openBracket :: (encodeItems items ++ [closeBracket])
  | .map members => openBrace :: (encodeMembers members ++ [closeBrace])

def encodeItems : List Document → List UInt16
  | [] => []
  | item :: items => encode item ++ if items.isEmpty then [] else comma :: encodeItems items

def encodeMembers : List (List UInt16 × Document) → List UInt16
  | [] => []
  | (key, value) :: members =>
      quoted key ++ colon :: (encode value ++
        if members.isEmpty then [] else comma :: encodeMembers members)

end

/-! ## Decoding -/

def isSpace (u : UInt16) : Bool := u == 0x20 || u == 0x09 || u == 0x0a || u == 0x0d

def skip (text : List UInt16) : List UInt16 := text.dropWhile isSpace

def hexValue (u : UInt16) : Option Nat :=
  if 0x30 ≤ u.toNat ∧ u.toNat ≤ 0x39 then some (u.toNat - 0x30)
  else if 0x61 ≤ u.toNat ∧ u.toNat ≤ 0x66 then some (u.toNat - 0x57)
  else if 0x41 ≤ u.toNat ∧ u.toNat ≤ 0x46 then some (u.toNat - 0x37)
  else none

/-- The code unit of an escape of one letter. -/
def unescape (u : UInt16) : Option UInt16 :=
  if u = quote ∨ u = backslash ∨ u = 0x2f then some u
  else if u = 0x62 then some 0x08
  else if u = 0x74 then some 0x09
  else if u = 0x6e then some 0x0a
  else if u = 0x66 then some 0x0c
  else if u = 0x72 then some 0x0d
  else none

def hexUnit (a b c d : UInt16) : Option UInt16 := do
  let a ← hexValue a
  let b ← hexValue b
  let c ← hexValue c
  let d ← hexValue d
  return UInt16.ofNat (a * 4096 + b * 256 + c * 16 + d)

/-- A string behind its opening quote, and what follows it. -/
def readString : List UInt16 → Option (List UInt16 × List UInt16)
  | [] => none
  | u :: rest =>
      if u = quote then some ([], rest)
      else if u = backslash then
        match rest with
        | [] => none
        | e :: rest =>
            if e = letterU then
              match rest with
              | a :: b :: c :: d :: rest => do
                  let u ← hexUnit a b c d
                  (readString rest).map fun p => (u :: p.1, p.2)
              | _ => none
            else do
              let u ← unescape e
              (readString rest).map fun p => (u :: p.1, p.2)
      else if u.toNat < 0x20 then none
      else (readString rest).map fun p => (u :: p.1, p.2)

def isDigit (u : UInt16) : Bool := 0x30 ≤ u.toNat && u.toNat ≤ 0x39

/-- Digits, one at least. -/
def readDigits (text : List UInt16) : Option (List UInt16 × List UInt16) :=
  match text.takeWhile isDigit with
  | [] => none
  | digits => some (digits, text.dropWhile isDigit)

def readFraction : List UInt16 → Option (List UInt16 × List UInt16)
  | 0x2e :: rest => (readDigits rest).map fun p => (0x2e :: p.1, p.2)
  | text => some ([], text)

def readExponent : List UInt16 → Option (List UInt16 × List UInt16)
  | [] => some ([], [])
  | e :: rest =>
      if e = 0x65 ∨ e = 0x45 then
        match rest with
        | [] => none
        | sign :: digits =>
            if sign = 0x2b ∨ sign = 0x2d then
              (readDigits digits).map fun p => (e :: sign :: p.1, p.2)
            else (readDigits rest).map fun p => (e :: p.1, p.2)
      else some ([], e :: rest)

def readNumber (text : List UInt16) : Option (List UInt16 × List UInt16) := do
  let sign : List UInt16 := if text.head? = some 0x2d then [0x2d] else []
  let (whole, rest) ← readDigits (text.drop sign.length)
  -- There is no zero in front of another digit.
  if whole.head? = some 0x30 ∧ whole.length ≠ 1 then none
  let (fraction, rest) ← readFraction rest
  let (exponent, rest) ← readExponent rest
  return (sign ++ whole ++ fraction ++ exponent, rest)

def readLiteral (word text : List UInt16) : Option (List UInt16) :=
  if word.isPrefixOf text then some (text.drop word.length) else none

/-- `map[key] = value` -/
def assign (map : List (List UInt16 × Document)) (key : List UInt16) (value : Document) :
    List (List UInt16 × Document) :=
  if map.any (·.1 == key) then map.map fun m => if m.1 = key then (key, value) else m
  else map ++ [(key, value)]

mutual

def readValue : Nat → List UInt16 → Option (Document × List UInt16)
  | 0, _ => none
  | fuel + 1, text =>
      match skip text with
      | [] => none
      | u :: rest =>
          if u = quote then (readString rest).map fun p => (.string p.1, p.2)
          else if u = openBracket then
            match readLiteral [closeBracket] (skip rest) with
            | some rest => some (.list [], rest)
            | none => (readItems fuel rest).map fun p => (.list p.1, p.2)
          else if u = openBrace then
            match readLiteral [closeBrace] (skip rest) with
            | some rest => some (.map [], rest)
            | none => (readMembers fuel [] rest).map fun p => (.map p.1, p.2)
          else if u = 0x74 then (readLiteral trueText (u :: rest)).map fun r => (.bool true, r)
          else if u = 0x66 then (readLiteral falseText (u :: rest)).map fun r => (.bool false, r)
          else if u = 0x6e then (readLiteral nullText (u :: rest)).map fun r => (.null, r)
          else (readNumber (u :: rest)).map fun p => (.number p.1, p.2)

/-- The items of a list up to its end. -/
def readItems : Nat → List UInt16 → Option (List Document × List UInt16)
  | 0, _ => none
  | fuel + 1, text => do
      let (item, rest) ← readValue fuel text
      match skip rest with
      | [] => none
      | u :: rest =>
          if u = comma then (readItems fuel rest).map fun p => (item :: p.1, p.2)
          else if u = closeBracket then some ([item], rest)
          else none

/-- The members of a map up to its end, after those that have been read. -/
def readMembers : Nat → List (List UInt16 × Document) → List UInt16 →
    Option (List (List UInt16 × Document) × List UInt16)
  | 0, _, _ => none
  | fuel + 1, map, text => do
      let rest ← readLiteral [quote] (skip text)
      let (key, rest) ← readString rest
      let rest ← readLiteral [colon] (skip rest)
      let (value, rest) ← readValue fuel rest
      match skip rest with
      | [] => none
      | u :: rest =>
          if u = comma then readMembers fuel (assign map key value) rest
          else if u = closeBrace then some (assign map key value, rest)
          else none

end

def decode (text : List UInt16) : Option Document := do
  let (document, rest) ← readValue (2 * text.length) text
  if skip rest = [] then some document else none

/-! ## Strings -/

theorem hexValue_hexDigit {n : Nat} (h : n < 16) : hexValue (hexDigit n) = some n := by
  have hall : ∀ n < 16, hexValue (hexDigit n) = some n := by decide
  exact hall n h

theorem readString_unicodeEscape (u : UInt16) (text : List UInt16) :
    readString (unicodeEscape u ++ text) = (readString text).map fun p => (u :: p.1, p.2) := by
  have hu := u.toNat_lt
  have hsum : u.toNat / 4096 * 4096 + u.toNat / 256 % 16 * 256 + u.toNat / 16 % 16 * 16 +
      u.toNat % 16 = u.toNat := by
    omega
  have hunit : hexUnit (hexDigit (u.toNat / 4096)) (hexDigit (u.toNat / 256 % 16))
      (hexDigit (u.toNat / 16 % 16)) (hexDigit (u.toNat % 16)) = some u := by
    simp only [hexUnit, hexValue_hexDigit (show u.toNat / 4096 < 16 by omega),
      hexValue_hexDigit (Nat.mod_lt _ (show 0 < 16 by decide)), Option.bind_eq_bind,
      Option.bind_some, hsum, UInt16.ofNat_toNat]
    rfl
  simp only [unicodeEscape, List.cons_append, List.nil_append]
  rw [readString, if_neg (by decide), if_pos rfl]
  simp only [if_true, hunit, Option.bind_eq_bind, Option.bind_some]

/-- A code unit that is written as it is. -/
theorem readString_plain {u : UInt16} (hquote : u ≠ quote) (hbackslash : u ≠ backslash)
    (hcontrol : ¬ u.toNat < 0x20) (text : List UInt16) :
    readString (u :: text) = (readString text).map fun p => (u :: p.1, p.2) := by
  rw [readString.eq_def]
  simp only [hquote, hbackslash, hcontrol, if_false]

theorem readString_letter {e u : UInt16} (hletter : e ≠ letterU) (h : unescape e = some u)
    (text : List UInt16) :
    readString (backslash :: e :: text) = (readString text).map fun p => (u :: p.1, p.2) := by
  have hquote : backslash ≠ quote := by decide
  rw [readString.eq_def]
  simp only [hquote, hletter, h, if_false, if_true, Option.bind_eq_bind, Option.bind_some]

theorem readString_quote (text : List UInt16) : readString (quote :: text) = some ([], text) := by
  rw [readString.eq_def]
  simp only [if_true]

theorem readString_escapeUnit (u : UInt16) (text : List UInt16) :
    readString (escapeUnit u ++ text) = (readString text).map fun p => (u :: p.1, p.2) := by
  unfold escapeUnit
  split
  · next h =>
      rcases h with rfl | rfl
      · exact readString_letter (by decide) (by decide) text
      · exact readString_letter (by decide) (by decide) text
  · next hquoted =>
      rw [not_or] at hquoted
      split_ifs with h8 h9 ha hc hd hescape
      · exact readString_letter (by decide) (h8 ▸ rfl) text
      · exact readString_letter (by decide) (h9 ▸ rfl) text
      · exact readString_letter (by decide) (ha ▸ rfl) text
      · exact readString_letter (by decide) (hc ▸ rfl) text
      · exact readString_letter (by decide) (hd ▸ rfl) text
      · exact readString_unicodeEscape u text
      · rw [not_or] at hescape
        exact readString_plain hquoted.1 hquoted.2 hescape.1 text

theorem readString_surrogate {u : UInt16} (h : isSurrogate u = true) (text : List UInt16) :
    readString (u :: text) = (readString text).map fun p => (u :: p.1, p.2) := by
  have hu : 0xD800 ≤ u.toNat := by
    simp only [isSurrogate, isLead, isTrail, Bool.or_eq_true, Bool.and_eq_true,
      decide_eq_true_eq] at h
    omega
  refine readString_plain ?_ ?_ (by omega) text
  · rintro rfl
    exact absurd hu (by decide)
  · rintro rfl
    exact absurd hu (by decide)

theorem readString_escape (s text : List UInt16) :
    readString (escape s ++ quote :: text) = some (s, text) := by
  induction s using escape.induct with
  | case1 =>
      rw [escape, List.nil_append, readString_quote]
  | case2 u =>
      rw [escape, readString_escapeUnit, readString_quote]
      rfl
  | case3 u v rest hpair ih =>
      have hboth := hpair
      rw [Bool.and_eq_true] at hboth
      rw [escape, if_pos hpair, List.cons_append, List.cons_append,
        readString_surrogate (by simp [isSurrogate, hboth.1]),
        readString_surrogate (by simp [isSurrogate, hboth.2]), ih]
      rfl
  | case4 u v rest hpair ih =>
      rw [escape, if_neg hpair, List.append_assoc, readString_escapeUnit, ih]
      rfl

/-! ## Documents -/

mutual

/-- There are no numbers, and the keys of a map are distinct. -/
def plain : Document → Bool
  | .number _ => false
  | .list items => plainItems items
  | .map members => decide (members.map Prod.fst).Nodup && plainMembers members
  | .null | .bool _ | .string _ => true

def plainItems : List Document → Bool
  | [] => true
  | item :: items => plain item && plainItems items

def plainMembers : List (List UInt16 × Document) → Bool
  | [] => true
  | (_, value) :: members => plain value && plainMembers members

end

theorem skip_cons {u : UInt16} (h : isSpace u = false) (text : List UInt16) :
    skip (u :: text) = u :: text := by
  rw [skip, List.dropWhile_cons, if_neg (by simp [h])]

theorem readLiteral_append (word text : List UInt16) : readLiteral word (word ++ text) = some text := by
  have hword : word.isPrefixOf (word ++ text) = true := by
    rw [List.isPrefixOf_iff_prefix]
    exact ⟨text, rfl⟩
  rw [readLiteral, if_pos hword, List.drop_left]

theorem readLiteral_cons (u : UInt16) (text : List UInt16) : readLiteral [u] (u :: text) = some text :=
  readLiteral_append [u] text

theorem readLiteral_cons_of_ne {u v : UInt16} (h : u ≠ v) (text : List UInt16) :
    readLiteral [u] (v :: text) = none := by
  rw [readLiteral, if_neg]
  simp [h]

theorem assign_of_not_mem {map : List (List UInt16 × Document)} {key : List UInt16}
    (h : key ∉ map.map Prod.fst) (value : Document) : assign map key value = map ++ [(key, value)] := by
  rw [assign, if_neg]
  intro hany
  obtain ⟨m, hm, hkey⟩ := List.any_eq_true.mp hany
  exact h (List.mem_map.mpr ⟨m, hm, eq_of_beq hkey⟩)

theorem key_not_mem {map members : List (List UInt16 × Document)} {key : List UInt16}
    {value : Document} (h : ((map ++ (key, value) :: members).map Prod.fst).Nodup) :
    key ∉ map.map Prod.fst := by
  rw [List.map_append, List.map_cons, List.nodup_append] at h
  intro hmem
  exact h.2.2 key hmem key (by simp) rfl

/-- What an encoded value starts with: no blank, and no end of a list. -/
theorem encode_head {d : Document} (h : plain d = true) :
    ∃ u text, encode d = u :: text ∧ isSpace u = false ∧ u ≠ closeBracket := by
  cases d with
  | null => exact ⟨_, _, rfl, by decide, by decide⟩
  | bool b => cases b <;> exact ⟨_, _, rfl, by decide, by decide⟩
  | number lexeme => simp [plain] at h
  | string s => exact ⟨_, _, by rw [encode, quoted], by decide, by decide⟩
  | list items => exact ⟨_, _, by rw [encode], by decide, by decide⟩
  | map members => exact ⟨_, _, by rw [encode], by decide, by decide⟩

theorem length_encode_pos {d : Document} (h : plain d = true) : 0 < (encode d).length := by
  obtain ⟨u, text, hencode, -⟩ := encode_head h
  rw [hencode]
  exact Nat.succ_pos _

/-! One step of the decoder. -/

section

variable {fuel : Nat} {text rest : List UInt16}

theorem readValue_null : readValue (fuel + 1) (nullText ++ text) = some (.null, text) := by
  rw [readValue, show skip (nullText ++ text) = nullText ++ text from skip_cons (by decide) _]
  exact congrArg (Option.map _) (readLiteral_append nullText text)

theorem readValue_true : readValue (fuel + 1) (trueText ++ text) = some (.bool true, text) := by
  rw [readValue, show skip (trueText ++ text) = trueText ++ text from skip_cons (by decide) _]
  exact congrArg (Option.map _) (readLiteral_append trueText text)

theorem readValue_false : readValue (fuel + 1) (falseText ++ text) = some (.bool false, text) := by
  rw [readValue, show skip (falseText ++ text) = falseText ++ text from skip_cons (by decide) _]
  exact congrArg (Option.map _) (readLiteral_append falseText text)

theorem readValue_quoted (s : List UInt16) :
    readValue (fuel + 1) (quoted s ++ text) = some (.string s, text) := by
  rw [quoted, List.cons_append, readValue, skip_cons (by decide)]
  simp only [if_true, List.append_assoc, List.singleton_append, readString_escape, Option.map_some]

theorem readValue_openBracket :
    readValue (fuel + 1) (openBracket :: text) =
      match readLiteral [closeBracket] (skip text) with
      | some rest => some (.list [], rest)
      | none => (readItems fuel text).map fun p => (.list p.1, p.2) := by
  rw [readValue, skip_cons (by decide)]
  rfl

theorem readValue_openBrace :
    readValue (fuel + 1) (openBrace :: text) =
      match readLiteral [closeBrace] (skip text) with
      | some rest => some (.map [], rest)
      | none => (readMembers fuel [] text).map fun p => (.map p.1, p.2) := by
  rw [readValue, skip_cons (by decide)]
  rfl

theorem readItems_last {item : Document} (h : readValue fuel text = some (item, closeBracket :: rest)) :
    readItems (fuel + 1) text = some ([item], rest) := by
  rw [readItems, h]
  simp only [Option.bind_eq_bind, Option.bind_some, skip_cons (show isSpace closeBracket = false by decide)]
  rfl

theorem readItems_comma {item : Document} (h : readValue fuel text = some (item, comma :: rest)) :
    readItems (fuel + 1) text = (readItems fuel rest).map fun p => (item :: p.1, p.2) := by
  rw [readItems, h]
  simp only [Option.bind_eq_bind, Option.bind_some, skip_cons (show isSpace comma = false by decide)]
  rfl

/-- A member up to its value. -/
theorem readMembers_quoted (map : List (List UInt16 × Document)) (key : List UInt16) :
    readMembers (fuel + 1) map (quoted key ++ colon :: text) =
      (readValue fuel text).bind fun p =>
        match skip p.2 with
        | [] => none
        | u :: rest =>
            if u = comma then readMembers fuel (assign map key p.1) rest
            else if u = closeBrace then some (assign map key p.1, rest)
            else none := by
  rw [readMembers, quoted, List.cons_append, skip_cons (by decide), readLiteral_cons]
  simp only [Option.bind_eq_bind, Option.bind_some, List.append_assoc, List.singleton_append,
    readString_escape, skip_cons (show isSpace colon = false by decide), readLiteral_cons]

end

/-! What is read back, each with the fuel that it takes. -/

mutual

theorem readValue_encode : ∀ (d : Document), plain d = true → ∀ {fuel : Nat},
    2 * (encode d).length ≤ fuel → ∀ text, readValue fuel (encode d ++ text) = some (d, text)
  | d, h, 0, hfuel, _ => by
      have hpos := length_encode_pos h
      omega
  | .null, _, fuel + 1, _, text => by rw [encode, readValue_null]
  | .bool true, _, fuel + 1, _, text => by rw [encode, readValue_true]
  | .bool false, _, fuel + 1, _, text => by rw [encode, readValue_false]
  | .number _, h, _, _, _ => by simp [plain] at h
  | .string s, _, fuel + 1, _, text => by rw [encode, readValue_quoted]
  | .list [], _, fuel + 1, _, text => by
      rw [encode, List.cons_append, readValue_openBracket, encodeItems, List.nil_append,
        List.singleton_append, skip_cons (by decide), readLiteral_cons]
  | .list (item :: items), h, fuel + 1, hfuel, text => by
      rw [encode, List.length_cons, List.length_append, List.length_singleton] at hfuel
      rw [plain] at h
      have hitems := readItems_encode item items h (show _ ≤ fuel by omega) text
      -- The list is not closed at once.
      have hopen : readLiteral [closeBracket]
          (skip (encodeItems (item :: items) ++ closeBracket :: text)) = none := by
        rw [plainItems, Bool.and_eq_true] at h
        obtain ⟨u, rest, hitem, hspace, hclose⟩ := encode_head h.1
        rw [encodeItems, hitem, List.cons_append, List.cons_append, skip_cons hspace,
          readLiteral_cons_of_ne hclose.symm]
      rw [encode, List.cons_append, List.append_assoc, List.singleton_append, readValue_openBracket,
        hopen, hitems]
      rfl
  | .map [], _, fuel + 1, _, text => by
      rw [encode, List.cons_append, readValue_openBrace, encodeMembers, List.nil_append,
        List.singleton_append, skip_cons (by decide), readLiteral_cons]
  | .map ((key, value) :: members), h, fuel + 1, hfuel, text => by
      rw [encode, List.length_cons, List.length_append, List.length_singleton] at hfuel
      rw [plain, Bool.and_eq_true, decide_eq_true_eq] at h
      have hmembers := readMembers_encode [] (key, value) members h.1 h.2 (show _ ≤ fuel by omega) text
      have hopen : readLiteral [closeBrace]
          (skip (encodeMembers ((key, value) :: members) ++ closeBrace :: text)) = none := by
        rw [encodeMembers, quoted, List.cons_append, List.cons_append, skip_cons (by decide),
          readLiteral_cons_of_ne (by decide)]
      rw [encode, List.cons_append, List.append_assoc, List.singleton_append, readValue_openBrace,
        hopen, hmembers]
      rfl

theorem readItems_encode : ∀ (item : Document) (items : List Document),
    plainItems (item :: items) = true → ∀ {fuel : Nat},
    2 * (encodeItems (item :: items)).length + 1 ≤ fuel → ∀ text,
    readItems fuel (encodeItems (item :: items) ++ closeBracket :: text) = some (item :: items, text)
  | _, _, _, 0, hfuel, _ => by omega
  | item, [], h, fuel + 1, hfuel, text => by
      rw [plainItems, Bool.and_eq_true] at h
      rw [encodeItems, List.length_append] at hfuel
      have hitem := readValue_encode item h.1 (show _ ≤ fuel by omega) (closeBracket :: text)
      rw [encodeItems, List.isEmpty_nil, if_pos rfl, List.append_nil, readItems_last hitem]
  | item, item' :: items, h, fuel + 1, hfuel, text => by
      rw [plainItems, Bool.and_eq_true] at h
      rw [encodeItems, List.length_append, List.isEmpty_cons, if_neg (by simp), List.length_cons]
        at hfuel
      have hitem := readValue_encode item h.1 (show _ ≤ fuel by omega)
        (comma :: (encodeItems (item' :: items) ++ closeBracket :: text))
      have hitems := readItems_encode item' items h.2 (show _ ≤ fuel by omega) text
      rw [encodeItems, List.isEmpty_cons, if_neg (by simp), List.append_assoc, List.cons_append,
        readItems_comma hitem, hitems]
      rfl

theorem readMembers_encode : ∀ (map : List (List UInt16 × Document))
    (member : List UInt16 × Document) (members : List (List UInt16 × Document)),
    ((map ++ member :: members).map Prod.fst).Nodup → plainMembers (member :: members) = true →
    ∀ {fuel : Nat}, 2 * (encodeMembers (member :: members)).length + 1 ≤ fuel → ∀ text,
    readMembers fuel map (encodeMembers (member :: members) ++ closeBrace :: text) =
      some (map ++ member :: members, text)
  | _, _, _, _, _, 0, hfuel, _ => by omega
  | map, (key, value), [], hkeys, h, fuel + 1, hfuel, text => by
      rw [plainMembers, Bool.and_eq_true] at h
      simp only [encodeMembers, List.length_append, List.length_cons] at hfuel
      have hvalue := readValue_encode value h.1 (show _ ≤ fuel by omega) (closeBrace :: text)
      rw [encodeMembers, List.isEmpty_nil, if_pos rfl, List.append_nil, List.append_assoc,
        List.cons_append, readMembers_quoted, hvalue, Option.bind_some]
      simp only [skip_cons (show isSpace closeBrace = false by decide),
        assign_of_not_mem (key_not_mem hkeys)]
      rfl
  | map, (key, value), member :: members, hkeys, h, fuel + 1, hfuel, text => by
      rw [plainMembers, Bool.and_eq_true] at h
      rw [encodeMembers, List.length_append, List.isEmpty_cons, if_neg (by simp), List.length_cons,
        List.length_append, List.length_cons] at hfuel
      have hvalue := readValue_encode value h.1 (show _ ≤ fuel by omega)
        (comma :: (encodeMembers (member :: members) ++ closeBrace :: text))
      have hmembers := readMembers_encode (map ++ [(key, value)]) member members
        (by simpa using hkeys) h.2 (show _ ≤ fuel by omega) text
      rw [encodeMembers, List.isEmpty_cons, if_neg (by simp), List.append_assoc, List.cons_append,
        List.append_assoc, List.cons_append, readMembers_quoted, hvalue, Option.bind_some]
      simp only [skip_cons (show isSpace comma = false by decide),
        assign_of_not_mem (key_not_mem hkeys), if_true, hmembers, List.append_assoc,
        List.singleton_append]

end

theorem decode_encode {d : Document} (h : plain d = true) : decode (encode d) = some d := by
  have hread := readValue_encode d h (Nat.le_refl _) []
  rw [List.append_nil] at hread
  rw [decode, hread]
  rfl

/-! ## The text -/

theorem hexDigit_not_isSurrogate {n : Nat} (h : n < 16) : isSurrogate (hexDigit n) = false := by
  have hall : ∀ n < 16, isSurrogate (hexDigit n) = false := by decide
  exact hall n h

theorem wellFormed_unicodeEscape (u : UInt16) : wellFormed (unicodeEscape u) = true := by
  have hu := u.toNat_lt
  refine wellFormed_of_forall fun v hv => ?_
  simp only [unicodeEscape, List.mem_cons, List.not_mem_nil, or_false] at hv
  rcases hv with rfl | rfl | rfl | rfl | rfl | rfl
  · decide
  · decide
  · exact hexDigit_not_isSurrogate (by omega)
  · exact hexDigit_not_isSurrogate (by omega)
  · exact hexDigit_not_isSurrogate (by omega)
  · exact hexDigit_not_isSurrogate (by omega)

theorem wellFormed_escapeUnit (u : UInt16) : wellFormed (escapeUnit u) = true := by
  unfold escapeUnit
  split_ifs with hquoted h8 h9 ha hc hd hescape
  · rcases hquoted with rfl | rfl <;> decide
  · decide
  · decide
  · decide
  · decide
  · decide
  · exact wellFormed_unicodeEscape u
  · rw [not_or] at hescape
    simp [wellFormed, hescape.2]

theorem wellFormed_escape (s : List UInt16) : wellFormed (escape s) = true := by
  induction s using escape.induct with
  | case1 => rfl
  | case2 u => exact wellFormed_escapeUnit u
  | case3 u v rest hpair ih => rw [escape, if_pos hpair, wellFormed, if_pos hpair, ih]
  | case4 u v rest hpair ih =>
      rw [escape, if_neg hpair]
      exact wellFormed_append (wellFormed_escapeUnit u) ih

theorem wellFormed_quoted (s : List UInt16) : wellFormed (quoted s) = true := by
  rw [quoted, wellFormed_cons (by decide)]
  exact wellFormed_append (wellFormed_escape s) (by decide)

/-! The text of a document is well-formed, whatever its strings are. -/

mutual

theorem wellFormed_encode : ∀ (d : Document), plain d = true → wellFormed (encode d) = true
  | .null, _ => by rw [encode]; decide
  | .bool true, _ => by rw [encode]; decide
  | .bool false, _ => by rw [encode]; decide
  | .number _, h => by simp [plain] at h
  | .string s, _ => by
      rw [encode]
      exact wellFormed_quoted s
  | .list items, h => by
      rw [plain] at h
      rw [encode, wellFormed_cons (by decide)]
      exact wellFormed_append (wellFormed_encodeItems items h) (by decide)
  | .map members, h => by
      rw [plain, Bool.and_eq_true] at h
      rw [encode, wellFormed_cons (by decide)]
      exact wellFormed_append (wellFormed_encodeMembers members h.2) (by decide)

theorem wellFormed_encodeItems : ∀ (items : List Document), plainItems items = true →
    wellFormed (encodeItems items) = true
  | [], _ => by rw [encodeItems]; rfl
  | item :: items, h => by
      rw [plainItems, Bool.and_eq_true] at h
      rw [encodeItems]
      refine wellFormed_append (wellFormed_encode item h.1) ?_
      split
      · rfl
      · rw [wellFormed_cons (by decide)]
        exact wellFormed_encodeItems items h.2

theorem wellFormed_encodeMembers : ∀ (members : List (List UInt16 × Document)),
    plainMembers members = true → wellFormed (encodeMembers members) = true
  | [], _ => by rw [encodeMembers]; rfl
  | (key, value) :: members, h => by
      rw [plainMembers, Bool.and_eq_true] at h
      rw [encodeMembers]
      refine wellFormed_append (wellFormed_quoted key) ?_
      rw [wellFormed_cons (by decide)]
      refine wellFormed_append (wellFormed_encode value h.1) ?_
      split
      · rfl
      · rw [wellFormed_cons (by decide)]
        exact wellFormed_encodeMembers members h.2

end

end Kyber.Lib.JsonText
