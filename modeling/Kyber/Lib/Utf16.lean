import Mathlib.Data.List.Basic
import Mathlib.Tactic.Ring

/-!
# Strings of UTF-16 code units

A string is a list of code units. A lead surrogate and a trail surrogate behind it are
one character; a surrogate without its partner is none, and is replaced by U+FFFD when
the string is encoded as UTF-8. The decoder takes UTF-8 and nothing else, and leaves a
byte order mark at the start away. So a string comes back from its bytes exactly if it
has no such surrogate and does not start with that mark.
-/

namespace Kyber.Lib.Utf16

def isLead (u : UInt16) : Bool := 0xD800 ≤ u.toNat && u.toNat < 0xDC00

def isTrail (u : UInt16) : Bool := 0xDC00 ≤ u.toNat && u.toNat < 0xE000

def isSurrogate (u : UInt16) : Bool := isLead u || isTrail u

def replacement : Char := '\ufffd'

/-- The character of a pair of surrogates. -/
def pair (lead trail : UInt16) : Char :=
  Char.ofNat (0x10000 + (lead.toNat - 0xD800) * 1024 + (trail.toNat - 0xDC00))

/-- The character of a code unit that is not part of a pair. -/
def single (u : UInt16) : Char := if isSurrogate u then replacement else Char.ofNat u.toNat

def scalars : List UInt16 → List Char
  | [] => []
  | [u] => [single u]
  | u :: v :: rest =>
      if isLead u && isTrail v then pair u v :: scalars rest else single u :: scalars (v :: rest)

/-- Every surrogate is part of a pair. -/
def wellFormed : List UInt16 → Bool
  | [] => true
  | [u] => !isSurrogate u
  | u :: v :: rest =>
      if isLead u && isTrail v then wellFormed rest else !isSurrogate u && wellFormed (v :: rest)

/-- The code units of a character. -/
def units (c : Char) : List UInt16 :=
  if c.toNat < 0x10000 then [UInt16.ofNat c.toNat]
  else
    [UInt16.ofNat (0xD800 + (c.toNat - 0x10000) / 1024),
      UInt16.ofNat (0xDC00 + (c.toNat - 0x10000) % 1024)]

/-- U+FEFF -/
def byteOrderMark : UInt16 := 0xFEFF

def dropMark : List Char → List Char
  | '\ufeff' :: rest => rest
  | cs => cs

def encodeUtf8 (s : List UInt16) : List UInt8 := (scalars s).flatMap String.utf8EncodeChar

def decodeUtf8 (bytes : List UInt8) : Option (List UInt16) :=
  (bytes.toByteArray.utf8Decode?).map fun cs => (dropMark cs.toList).flatMap units

/-! ## Characters -/

theorem toNat_ofNat {n : Nat} (h : n.isValidChar) : (Char.ofNat n).toNat = n := by
  rw [Char.ofNat, dif_pos h]
  rfl

theorem units_single {u : UInt16} (h : isSurrogate u = false) : units (single u) = [u] := by
  have hu := u.toNat_lt
  have hvalid : u.toNat.isValidChar := by
    simp only [isSurrogate, isLead, isTrail, Bool.or_eq_false_iff, Bool.and_eq_false_iff,
      decide_eq_false_iff_not] at h
    unfold Nat.isValidChar
    omega
  rw [single, h, if_neg (by simp), units, toNat_ofNat hvalid, if_pos (by omega),
    UInt16.ofNat_toNat]

theorem units_pair {u v : UInt16} (hu : isLead u = true) (hv : isTrail v = true) :
    units (pair u v) = [u, v] := by
  simp only [isLead, isTrail, Bool.and_eq_true, decide_eq_true_eq] at hu hv
  have hvalid : (0x10000 + (u.toNat - 0xD800) * 1024 + (v.toNat - 0xDC00)).isValidChar := by
    unfold Nat.isValidChar
    omega
  rw [pair, units, toNat_ofNat hvalid, if_neg (by omega)]
  have hlead : 0xD800 +
      (0x10000 + (u.toNat - 0xD800) * 1024 + (v.toNat - 0xDC00) - 0x10000) / 1024 = u.toNat := by
    omega
  have htrail : 0xDC00 +
      (0x10000 + (u.toNat - 0xD800) * 1024 + (v.toNat - 0xDC00) - 0x10000) % 1024 = v.toNat := by
    omega
  rw [hlead, htrail, UInt16.ofNat_toNat, UInt16.ofNat_toNat]

theorem units_replacement : units replacement = [0xFFFD] := by decide

theorem units_mark : units '\ufeff' = [byteOrderMark] := by decide

/-! ## Round trips -/

/-- The string with the replacements that encoding makes. -/
def sanitize (s : List UInt16) : List UInt16 := (scalars s).flatMap units

theorem sanitize_singleton (u : UInt16) : sanitize [u] = units (single u) := by
  rw [sanitize, scalars, List.flatMap_singleton]

theorem sanitize_of_pair {u v : UInt16} (h : (isLead u && isTrail v) = true) (s : List UInt16) :
    sanitize (u :: v :: s) = u :: v :: sanitize s := by
  have hboth := h
  rw [Bool.and_eq_true] at hboth
  rw [sanitize, scalars, if_pos h, List.flatMap_cons, units_pair hboth.1 hboth.2, ← sanitize]
  rfl

theorem sanitize_of_not_pair {u v : UInt16} (h : ¬ (isLead u && isTrail v) = true)
    (s : List UInt16) : sanitize (u :: v :: s) = units (single u) ++ sanitize (v :: s) := by
  rw [sanitize, scalars, if_neg h, List.flatMap_cons, ← sanitize]

theorem units_single_length (u : UInt16) : (units (single u)).length = 1 := by
  cases h : isSurrogate u with
  | false => rw [units_single h, List.length_singleton]
  | true => rw [single, h, if_pos rfl, units_replacement, List.length_singleton]

theorem length_sanitize (s : List UInt16) : (sanitize s).length = s.length := by
  induction s using scalars.induct with
  | case1 => rfl
  | case2 u => rw [sanitize_singleton, units_single_length, List.length_singleton]
  | case3 u v rest hpair ih =>
      rw [sanitize_of_pair hpair, List.length_cons, List.length_cons, ih, List.length_cons,
        List.length_cons]
  | case4 u v rest hpair ih =>
      rw [sanitize_of_not_pair hpair, List.length_append, ih, units_single_length, Nat.add_comm]
      rfl

theorem units_single_eq_iff (u : UInt16) : units (single u) = [u] ↔ isSurrogate u = false := by
  refine ⟨fun h => ?_, units_single⟩
  cases hu : isSurrogate u with
  | false => rfl
  | true =>
      rw [single, hu, if_pos rfl, units_replacement, List.cons.injEq] at h
      rw [← h.1] at hu
      exact absurd hu (by decide)

theorem sanitize_eq_iff (s : List UInt16) : sanitize s = s ↔ wellFormed s = true := by
  induction s using scalars.induct with
  | case1 => simp [sanitize, scalars, wellFormed]
  | case2 u =>
      rw [sanitize_singleton, units_single_eq_iff, wellFormed]
      simp
  | case3 u v rest hpair ih =>
      rw [sanitize_of_pair hpair, wellFormed, if_pos hpair, ← ih]
      simp
  | case4 u v rest hpair ih =>
      rw [sanitize_of_not_pair hpair, wellFormed, if_neg hpair, Bool.and_eq_true, ← ih,
        Bool.not_eq_true', ← units_single_eq_iff]
      obtain ⟨x, hx⟩ := List.length_eq_one_iff.mp (units_single_length u)
      rw [hx]
      simp

theorem single_ne_mark {u : UInt16} (h : u ≠ byteOrderMark) : single u ≠ '\ufeff' := by
  intro hmark
  cases hu : isSurrogate u with
  | true =>
      rw [single, hu, if_pos rfl] at hmark
      exact absurd hmark (by decide)
  | false =>
      have hunits := units_single hu
      rw [hmark] at hunits
      rw [units_mark, List.cons.injEq] at hunits
      exact h hunits.1.symm

theorem pair_ne_mark {u v : UInt16} (hu : isLead u = true) (hv : isTrail v = true) :
    pair u v ≠ '\ufeff' := by
  intro hmark
  have hunits := units_pair hu hv
  rw [hmark, units_mark] at hunits
  simp at hunits

theorem dropMark_of_ne {c : Char} (h : c ≠ '\ufeff') (cs : List Char) :
    dropMark (c :: cs) = c :: cs := by
  unfold dropMark
  split
  · next heq => exact absurd (List.cons.inj heq).1 h
  · rfl

theorem dropMark_scalars {s : List UInt16} (h : s.head? ≠ some byteOrderMark) :
    dropMark (scalars s) = scalars s := by
  match s with
  | [] => rfl
  | [u] =>
      have hu : u ≠ byteOrderMark := by simpa using h
      exact dropMark_of_ne (single_ne_mark hu) []
  | u :: v :: rest =>
      have hu : u ≠ byteOrderMark := by simpa using h
      rw [scalars]
      split
      · next hpair =>
          rw [Bool.and_eq_true] at hpair
          exact dropMark_of_ne (pair_ne_mark hpair.1 hpair.2) _
      · exact dropMark_of_ne (single_ne_mark hu) _

theorem scalars_mark (s : List UInt16) : scalars (byteOrderMark :: s) = '\ufeff' :: scalars s := by
  have hsingle : single byteOrderMark = '\ufeff' := by decide
  cases s with
  | nil => exact congrArg (fun c => [c]) hsingle
  | cons v rest =>
      have hlead : isLead byteOrderMark = false := by decide
      rw [scalars, hlead, Bool.false_and, if_neg (by simp), hsingle]

theorem decodeUtf8_scalars (s : List UInt16) :
    decodeUtf8 (encodeUtf8 s) = some ((dropMark (scalars s)).flatMap units) := by
  have hdecode : ((scalars s).flatMap String.utf8EncodeChar).toByteArray.utf8Decode? =
      some (scalars s).toArray :=
    List.utf8Decode?_utf8Encode
  rw [decodeUtf8, encodeUtf8, hdecode]
  rfl

/-- What is read back of a string. -/
theorem decodeUtf8_encodeUtf8 {s : List UInt16} (h : s.head? ≠ some byteOrderMark) :
    decodeUtf8 (encodeUtf8 s) = some (sanitize s) := by
  rw [decodeUtf8_scalars, dropMark_scalars h, sanitize]

theorem decodeUtf8_encodeUtf8_mark (s : List UInt16) :
    decodeUtf8 (encodeUtf8 (byteOrderMark :: s)) = some (sanitize s) := by
  rw [decodeUtf8_scalars, scalars_mark, sanitize]
  rfl

/-! ## Parts of a string -/

theorem isLead_of_not_isSurrogate {u : UInt16} (h : isSurrogate u = false) : isLead u = false :=
  (Bool.or_eq_false_iff.mp h).1

theorem isTrail_of_not_isSurrogate {u : UInt16} (h : isSurrogate u = false) : isTrail u = false :=
  (Bool.or_eq_false_iff.mp h).2

theorem sanitize_cons {u : UInt16} (h : isSurrogate u = false) (s : List UInt16) :
    sanitize (u :: s) = u :: sanitize s := by
  cases s with
  | nil =>
      rw [sanitize_singleton, units_single h]
      rfl
  | cons v rest =>
      rw [sanitize_of_not_pair (by simp [isLead_of_not_isSurrogate h]), units_single h]
      rfl

/-- A code unit that is no surrogate separates what is before it from what comes after. -/
theorem sanitize_append_cons {u : UInt16} (h : isSurrogate u = false) (s t : List UInt16) :
    sanitize (s ++ u :: t) = sanitize s ++ u :: sanitize t := by
  induction s using scalars.induct with
  | case1 => exact sanitize_cons h t
  | case2 v =>
      rw [List.singleton_append, sanitize_of_not_pair (by simp [isTrail_of_not_isSurrogate h]),
        sanitize_cons h, sanitize_singleton]
  | case3 v w rest hpair ih =>
      rw [List.cons_append, List.cons_append, sanitize_of_pair hpair, ih, sanitize_of_pair hpair]
      rfl
  | case4 v w rest hpair ih =>
      rw [List.cons_append, List.cons_append, sanitize_of_not_pair hpair, ← List.cons_append, ih,
        sanitize_of_not_pair hpair, List.append_assoc]

/-- Nothing but replacements comes in. -/
theorem mem_sanitize {u : UInt16} {s : List UInt16} (h : u ∈ sanitize s) : u ∈ s ∨ u = 0xFFFD := by
  have hsingle : ∀ v, u ∈ units (single v) → u = v ∨ u = 0xFFFD := by
    intro v hv
    cases hsurrogate : isSurrogate v with
    | false =>
        rw [units_single hsurrogate, List.mem_singleton] at hv
        exact .inl hv
    | true =>
        rw [single, hsurrogate, if_pos rfl, units_replacement, List.mem_singleton] at hv
        exact .inr hv
  induction s using scalars.induct with
  | case1 => cases h
  | case2 v =>
      rw [sanitize_singleton] at h
      exact (hsingle v h).imp_left fun heq => by simp [heq]
  | case3 v w rest hpair ih =>
      rw [sanitize_of_pair hpair] at h
      rcases List.mem_cons.mp h with rfl | h
      · simp
      · rcases List.mem_cons.mp h with rfl | h
        · simp
        · exact (ih h).imp_left fun hmem => by simp [hmem]
  | case4 v w rest hpair ih =>
      rw [sanitize_of_not_pair hpair, List.mem_append] at h
      rcases h with h | h
      · exact (hsingle v h).imp_left fun heq => by simp [heq]
      · exact (ih h).imp_left fun hmem => List.mem_cons_of_mem _ hmem

theorem wellFormed_cons {u : UInt16} (h : isSurrogate u = false) (s : List UInt16) :
    wellFormed (u :: s) = wellFormed s := by
  cases s with
  | nil => simp [wellFormed, h]
  | cons v rest => simp [wellFormed, h, isLead_of_not_isSurrogate h]

theorem wellFormed_append {s t : List UInt16} (hs : wellFormed s = true) (ht : wellFormed t = true) :
    wellFormed (s ++ t) = true := by
  induction s using scalars.induct with
  | case1 => exact ht
  | case2 u =>
      have hu : isSurrogate u = false := by simpa [wellFormed] using hs
      rw [List.singleton_append, wellFormed_cons hu, ht]
  | case3 u v rest hpair ih =>
      rw [wellFormed, if_pos hpair] at hs
      rw [List.cons_append, List.cons_append, wellFormed, if_pos hpair]
      exact ih hs
  | case4 u v rest hpair ih =>
      rw [wellFormed, if_neg hpair, Bool.and_eq_true] at hs
      rw [List.cons_append, List.cons_append, wellFormed, if_neg hpair, hs.1, Bool.true_and]
      exact ih hs.2

/-- A text without surrogates. -/
theorem wellFormed_of_forall {s : List UInt16} (h : ∀ u ∈ s, isSurrogate u = false) :
    wellFormed s = true := by
  induction s with
  | nil => rfl
  | cons u s ih =>
      rw [wellFormed_cons (h u (by simp))]
      exact ih fun v hv => h v (by simp [hv])

end Kyber.Lib.Utf16
