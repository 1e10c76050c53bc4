import Mathlib.Data.Nat.Basic
import Mathlib.Tactic.Ring

/-!
# Decimal texts

The text of a number is the only text without a leading zero that is read as the
number. Texts of several numbers have a separator between them, and are taken apart at it.
-/

namespace Kyber.Lib

/-- Digits, the first of which is not a zero that others follow. -/
def isDecimal : List Char → Bool
  | [] => false
  | [c] => c.isDigit
  | c :: rest => c != '0' && (c :: rest).all Char.isDigit

theorem all_isDigit_of_isDecimal {l : List Char} (h : isDecimal l = true) :
    l.all Char.isDigit = true := by
  match l, h with
  | [c], h => simpa [isDecimal] using h
  | c :: d :: rest, h => exact (Bool.and_eq_true_iff.mp h).2

theorem isDigit_iff_toNat {c : Char} : c.isDigit = true ↔ 48 ≤ c.toNat ∧ c.toNat ≤ 57 := by
  simp only [Char.isDigit, Bool.and_eq_true, decide_eq_true_eq]
  exact Iff.rfl

/-- A digit is the text of its value. -/
theorem toDigits_toNat_sub {c : Char} (h : c.isDigit = true) :
    Nat.toDigits 10 (c.toNat - 48) = [c] := by
  have hrange := isDigit_iff_toNat.mp h
  rw [Nat.toDigits_of_lt_base (by omega)]
  refine congrArg (fun c => [c]) (Char.toNat_inj.mp ?_)
  rw [Nat.toNat_digitChar_of_lt_ten (by omega)]
  omega

theorem ofDigitChars_lt {l : List Char} (hl : l.all Char.isDigit = true) :
    Nat.ofDigitChars 10 l 0 < 10 ^ l.length := by
  induction l with
  | nil => simp
  | cons c rest ih =>
      rw [List.all_cons, Bool.and_eq_true] at hl
      have hc := isDigit_iff_toNat.mp hl.1
      have hrest := ih hl.2
      have hfirst : 10 ^ rest.length * (c.toNat - 48) ≤ 10 ^ rest.length * 9 :=
        Nat.mul_le_mul_left _ (by omega)
      rw [Nat.ofDigitChars_cons, Nat.ofDigitChars_eq_ofDigitChars_zero, List.length_cons,
        Nat.pow_succ]
      show 10 ^ rest.length * (10 * 0 + (c.toNat - 48)) + _ < _
      rw [Nat.mul_zero, Nat.zero_add]
      omega

/-- Digits that are read after a number other than zero are appended to its text. -/
theorem toDigits_ofDigitChars_append {l : List Char} (hl : l.all Char.isDigit = true) {n : Nat}
    (hn : 0 < n) : Nat.toDigits 10 (Nat.ofDigitChars 10 l n) = Nat.toDigits 10 n ++ l := by
  induction l generalizing n with
  | nil => simp
  | cons c rest ih =>
      rw [List.all_cons, Bool.and_eq_true] at hl
      have hc := isDigit_iff_toNat.mp hl.1
      have happend := Nat.toDigits_append_toDigits (show 1 < 10 by omega) hn
        (show c.toNat - 48 < 10 by omega)
      rw [toDigits_toNat_sub hl.1] at happend
      rw [Nat.ofDigitChars_cons]
      show Nat.toDigits 10 (Nat.ofDigitChars 10 rest (10 * n + (c.toNat - 48))) = _
      rw [ih hl.2 (by omega), ← happend, List.append_assoc]
      rfl

/-- A decimal text is the text of the number that it is read as. -/
theorem toDigits_ofDigitChars {l : List Char} (h : isDecimal l = true) :
    Nat.toDigits 10 (Nat.ofDigitChars 10 l 0) = l := by
  match l, h with
  | [c], h =>
      have hc : c.isDigit = true := h
      rw [Nat.ofDigitChars_cons, Nat.ofDigitChars_nil, Nat.mul_zero, Nat.zero_add]
      exact toDigits_toNat_sub hc
  | c :: d :: rest, h =>
      obtain ⟨hzero, hdigits⟩ := Bool.and_eq_true_iff.mp h
      rw [List.all_cons, Bool.and_eq_true] at hdigits
      have hrange := isDigit_iff_toNat.mp hdigits.1
      have hpos : c.toNat ≠ 48 := fun heq =>
        bne_iff_ne.mp hzero (Char.toNat_inj.mp heq)
      rw [Nat.ofDigitChars_cons]
      show Nat.toDigits 10 (Nat.ofDigitChars 10 (d :: rest) (10 * 0 + (c.toNat - 48))) = _
      rw [Nat.mul_zero, Nat.zero_add, toDigits_ofDigitChars_append hdigits.2 (by omega),
        toDigits_toNat_sub hdigits.1]
      rfl

theorem head?_toDigits_ne {n : Nat} (hn : 0 < n) : (Nat.toDigits 10 n).head? ≠ some '0' := by
  induction n using Nat.strong_induction_on with
  | _ n ih =>
      by_cases hlt : n < 10
      · rw [Nat.toDigits_of_lt_base hlt]
        intro heq
        have hchar : n.digitChar.toNat = 48 := congrArg Char.toNat (Option.some.inj heq)
        rw [Nat.toNat_digitChar_of_lt_ten hlt] at hchar
        omega
      · rw [Nat.toDigits_of_base_le (by omega) (by omega), List.head?_append,
          Option.or_of_isSome (List.isSome_head?.mpr Nat.toDigits_ne_nil)]
        exact ih (n / 10) (by omega) (by omega)

theorem isDecimal_toDigits (n : Nat) : isDecimal (Nat.toDigits 10 n) = true := by
  have hdigits : ∀ c ∈ Nat.toDigits 10 n, c.isDigit = true :=
    fun c hc => Nat.isDigit_of_mem_toDigits (by omega) (by omega) hc
  by_cases hn : n = 0
  · rw [hn, Nat.toDigits_zero]
    rfl
  · have hhead := head?_toDigits_ne (Nat.pos_of_ne_zero hn)
    match h : Nat.toDigits 10 n with
    | [] => exact absurd h Nat.toDigits_ne_nil
    | [c] =>
        rw [h] at hdigits
        exact hdigits c (List.mem_singleton_self c)
    | c :: d :: rest =>
        rw [h] at hdigits hhead
        refine Bool.and_eq_true_iff.mpr ⟨bne_iff_ne.mpr fun heq => hhead ?_,
          List.all_eq_true.mpr hdigits⟩
        rw [heq]
        rfl

/-- The last digit. -/
theorem getLast?_toDigits (n : Nat) :
    (Nat.toDigits 10 n).getLast? = some (Nat.digitChar (n % 10)) := by
  rw [Nat.toDigits_eq_if (by omega)]
  split
  · next hlt => rw [Nat.mod_eq_of_lt hlt, List.getLast?_singleton]
  · exact List.getLast?_concat

theorem toDigits_inj {m n : Nat} : Nat.toDigits 10 m = Nat.toDigits 10 n ↔ m = n := by
  constructor
  · intro h
    rw [← Nat.ofDigitChars_toDigits (b := 10) (n := m) (by omega) (by omega), h,
      Nat.ofDigitChars_toDigits (by omega) (by omega)]
  · rintro rfl
    rfl

/-! ## Numbers with a separator in between -/

section

variable {α : Type} {c : α} {x y : List α}

/-- What comes before the first separator, and what comes behind it. -/
theorem append_cons_inj {x' y' : List α} (hx : c ∉ x) (hx' : c ∉ x')
    (h : x ++ c :: y = x' ++ c :: y') : x = x' ∧ y = y' := by
  induction x generalizing x' with
  | nil =>
      cases x' with
      | nil => exact ⟨rfl, (List.cons.inj h).2⟩
      | cons a x' =>
          obtain rfl := (List.cons.inj h).1
          exact absurd List.mem_cons_self hx'
  | cons a x ih =>
      cases x' with
      | nil =>
          obtain rfl := (List.cons.inj h).1
          exact absurd List.mem_cons_self hx
      | cons b x' =>
          obtain ⟨rfl, hrest⟩ := List.cons.inj h
          obtain ⟨rfl, rfl⟩ := ih (fun hmem => hx (List.mem_cons_of_mem _ hmem))
            (fun hmem => hx' (List.mem_cons_of_mem _ hmem)) hrest
          exact ⟨rfl, rfl⟩

/-- A pattern with all of a text's separators is in the text exactly if the parts between them are
the same, and the text's first part ends with the pattern's. -/
theorem isInfix_separated_iff [DecidableEq α] {z w p q r : List α} (hx : c ∉ x) (hy : c ∉ y)
    (hz : c ∉ z) (hw : c ∉ w) (hp : c ∉ p) (hq : c ∉ q) (hr : c ∉ r) :
    (p ++ c :: q ++ c :: r ++ [c]) <:+: (x ++ c :: y ++ c :: z ++ c :: w) ↔
      p <:+ x ∧ y = q ∧ z = r := by
  constructor
  · rintro ⟨s, t, h⟩
    -- The pattern has three separators, and so has the text: there is none around the pattern.
    have hcount := congrArg (List.count c) h
    simp only [List.count_append, List.count_cons_self, List.count_nil,
      List.count_eq_zero_of_not_mem hx, List.count_eq_zero_of_not_mem hy,
      List.count_eq_zero_of_not_mem hz, List.count_eq_zero_of_not_mem hw,
      List.count_eq_zero_of_not_mem hp, List.count_eq_zero_of_not_mem hq,
      List.count_eq_zero_of_not_mem hr] at hcount
    have hs : c ∉ s := List.count_eq_zero.mp (by omega)
    have hsp : c ∉ s ++ p := fun hmem => (List.mem_append.mp hmem).elim hs hp
    simp only [List.append_assoc, List.cons_append, List.nil_append] at h
    rw [← List.append_assoc] at h
    obtain ⟨hfirst, h⟩ := append_cons_inj hsp hx h
    obtain ⟨hsecond, h⟩ := append_cons_inj hq hy h
    obtain ⟨hthird, -⟩ := append_cons_inj hr hz h
    exact ⟨⟨s, hfirst⟩, hsecond.symm, hthird.symm⟩
  · rintro ⟨⟨s, rfl⟩, rfl, rfl⟩
    exact ⟨s, w, by simp⟩

end

end Kyber.Lib
