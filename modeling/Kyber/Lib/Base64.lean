import Mathlib.Data.List.Basic
import Mathlib.Tactic.Ring

/-!
# Base 64

Three bytes as four code units of the alphabet, with padding behind the last of them.
The decoder takes the alphabet for URLs as well; it wants the padding, nothing behind it,
and no bits that are not used. Padding that is spelled `%3D` is not covered.
-/

namespace Kyber.Lib.Base64

def pad : UInt16 := 0x3d

def symbol (n : Nat) : UInt16 :=
  UInt16.ofNat (if n < 26 then 0x41 + n else if n < 52 then 0x47 + n else if n < 62 then n - 4
    else if n = 62 then 0x2b else 0x2f)

def value (u : UInt16) : Option Nat :=
  let n := u.toNat
  if 0x41 ≤ n ∧ n ≤ 0x5a then some (n - 0x41)
  else if 0x61 ≤ n ∧ n ≤ 0x7a then some (n - 0x47)
  else if 0x30 ≤ n ∧ n ≤ 0x39 then some (n + 4)
  else if n = 0x2b ∨ n = 0x2d then some 62
  else if n = 0x2f ∨ n = 0x5f then some 63
  else none

def encode : List UInt8 → List UInt16
  | [] => []
  | [a] => [symbol (a.toNat / 4), symbol (a.toNat % 4 * 16), pad, pad]
  | [a, b] =>
      [symbol (a.toNat / 4), symbol (a.toNat % 4 * 16 + b.toNat / 16), symbol (b.toNat % 16 * 4), pad]
  | a :: b :: c :: rest =>
      symbol (a.toNat / 4) :: symbol (a.toNat % 4 * 16 + b.toNat / 16) ::
        symbol (b.toNat % 16 * 4 + c.toNat / 64) :: symbol (c.toNat % 64) :: encode rest

def decode : List UInt16 → Option (List UInt8)
  | [] => some []
  | p :: q :: r :: s :: rest => do
      let w ← value p
      let x ← value q
      let first := UInt8.ofNat (w * 4 + x / 16)
      match value r, value s with
      | some y, some z =>
          let bytes ← decode rest
          some (first :: UInt8.ofNat (x % 16 * 16 + y / 4) :: UInt8.ofNat (y % 4 * 64 + z) :: bytes)
      | some y, none =>
          if s = pad ∧ rest = [] ∧ y % 4 = 0 then
            some [first, UInt8.ofNat (x % 16 * 16 + y / 4)]
          else none
      | none, _ => if r = pad ∧ s = pad ∧ rest = [] ∧ x % 16 = 0 then some [first] else none
  | _ => none

theorem value_symbol {n : Nat} (h : n < 64) : value (symbol n) = some n := by
  have hall : ∀ n < 64, value (symbol n) = some n := by decide
  exact hall n h

theorem value_pad : value pad = none := by decide

theorem ofNat_of_eq {n : Nat} {a : UInt8} (h : n = a.toNat) : UInt8.ofNat n = a := by
  rw [h, UInt8.ofNat_toNat]

theorem decode_encode (bytes : List UInt8) : decode (encode bytes) = some bytes := by
  induction bytes using encode.induct with
  | case1 => rfl
  | case2 a =>
      have ha := a.toNat_lt
      simp only [encode, decode, value_symbol (show a.toNat / 4 < 64 by omega),
        value_symbol (show a.toNat % 4 * 16 < 64 by omega), value_pad, Option.bind_eq_bind,
        Option.bind_some]
      rw [if_pos ⟨trivial, trivial, trivial, by omega⟩, ofNat_of_eq (show _ = a.toNat by omega)]
  | case3 a b =>
      have ha := a.toNat_lt
      have hb := b.toNat_lt
      simp only [encode, decode, value_symbol (show a.toNat / 4 < 64 by omega),
        value_symbol (show a.toNat % 4 * 16 + b.toNat / 16 < 64 by omega),
        value_symbol (show b.toNat % 16 * 4 < 64 by omega), value_pad, Option.bind_eq_bind,
        Option.bind_some]
      rw [if_pos ⟨trivial, trivial, by omega⟩, ofNat_of_eq (show _ = a.toNat by omega),
        ofNat_of_eq (show _ = b.toNat by omega)]
  | case4 a b c rest ih =>
      have ha := a.toNat_lt
      have hb := b.toNat_lt
      have hc := c.toNat_lt
      simp only [encode, decode, value_symbol (show a.toNat / 4 < 64 by omega),
        value_symbol (show a.toNat % 4 * 16 + b.toNat / 16 < 64 by omega),
        value_symbol (show b.toNat % 16 * 4 + c.toNat / 64 < 64 by omega),
        value_symbol (show c.toNat % 64 < 64 by omega), ih, Option.bind_eq_bind, Option.bind_some]
      rw [ofNat_of_eq (show _ = a.toNat by omega), ofNat_of_eq (show _ = b.toNat by omega),
        ofNat_of_eq (show _ = c.toNat by omega)]

end Kyber.Lib.Base64
