import Mathlib.Data.List.Basic
import Mathlib.Tactic.Ring

/-!
# Words as bytes

The fixed-width half of every binary format: a number written as a given
count of bytes, least significant first, and read back from them. Both
directions are total, and they are inverse to each other on the numbers that
fit and on the byte lists of that width — those two facts, with the length of
what is written, are all that a codec built over them ever needs.

The variable-width half is the base-128 encoding: seven bits a byte, the
eighth bit saying that more follow. It is stated here as a plain list, and
`septets_step` is the one arithmetic fact its reader rests on.
-/

namespace Kyber.Lib

/-- `n` as `w` bytes, least significant first; what does not fit is cut off. -/
def leBytes : Nat → Nat → List UInt8
  | 0, _ => []
  | w + 1, n => UInt8.ofNat n :: leBytes w (n / 256)

/-- The number a byte list spells, least significant byte first. -/
def leNat : List UInt8 → Nat
  | [] => 0
  | b :: bs => b.toNat + 256 * leNat bs

@[simp] theorem length_leBytes (w n : Nat) : (leBytes w n).length = w := by
  induction w generalizing n with
  | zero => rfl
  | succ w ih => simp [leBytes, ih]

theorem leNat_leBytes {w n : Nat} (h : n < 256 ^ w) : leNat (leBytes w n) = n := by
  induction w generalizing n with
  | zero =>
      have hn : n = 0 := by simpa using h
      simp [leBytes, leNat, hn]
  | succ w ih =>
      have hd : n / 256 < 256 ^ w := by
        rw [Nat.div_lt_iff_lt_mul (by decide), ← Nat.pow_succ]
        exact h
      rw [leBytes, leNat, ih hd, UInt8.toNat_ofNat']
      omega

theorem leNat_lt (bs : List UInt8) : leNat bs < 256 ^ bs.length := by
  induction bs with
  | nil => simp [leNat]
  | cons b bs ih =>
      have hb := b.toNat_lt
      rw [leNat, List.length_cons, Nat.pow_succ]
      omega

/-! ## Base 128 -/

/-- `n` in groups of seven bits, low group first, every group but the last
with the continuation bit set. -/
def septets (n : Nat) : List UInt8 :=
  if n < 128 then [UInt8.ofNat n] else UInt8.ofNat (n % 128 + 128) :: septets (n / 128)
termination_by n

theorem septets_of_lt {n : Nat} (h : n < 128) : septets n = [UInt8.ofNat n] := by
  rw [septets, if_pos h]

theorem septets_of_ge {n : Nat} (h : 128 ≤ n) :
    septets n = UInt8.ofNat (n % 128 + 128) :: septets (n / 128) := by
  rw [septets, if_neg (by omega)]

theorem septets_ne_nil (n : Nat) : septets n ≠ [] := by
  rw [septets]
  split <;> simp

/-- A number below `128 ^ k` takes at most `k` groups. -/
theorem length_septets_le {k n : Nat} (h : n < 128 ^ (k + 1)) :
    (septets n).length ≤ k + 1 := by
  induction k generalizing n with
  | zero => rw [septets_of_lt (by simpa using h)]; simp
  | succ k ih =>
      rcases Nat.lt_or_ge n 128 with hn | hn
      · rw [septets_of_lt hn]; simp
      · have hd : n / 128 < 128 ^ (k + 1) := by
          rw [Nat.div_lt_iff_lt_mul (by decide), ← Nat.pow_succ]
          exact h
        have := ih hd
        rw [septets_of_ge hn, List.length_cons]
        omega

/-- Reading one group: the low seven bits of what is left, put back at the
shift the reader has reached, together with the rest one group further up. -/
theorem septets_step (n i : Nat) :
    n % 128 * 2 ^ i + n / 128 * 2 ^ (i + 7) = n * 2 ^ i := by
  have hn := Nat.div_add_mod n 128
  have hp : 2 ^ (i + 7) = 128 * 2 ^ i := by rw [Nat.pow_add]; ring
  calc n % 128 * 2 ^ i + n / 128 * 2 ^ (i + 7)
      = (128 * (n / 128) + n % 128) * 2 ^ i := by rw [hp]; ring
    _ = n * 2 ^ i := by rw [hn]

/-- Numbers that fit are told apart by their words. -/
theorem ofNat_inj_of_lt {m n : Nat} (hm : m < 2 ^ 32) (hn : n < 2 ^ 32) :
    UInt32.ofNat m = UInt32.ofNat n ↔ m = n := by
  constructor
  · intro h
    have := congrArg UInt32.toNat h
    rwa [UInt32.toNat_ofNat_of_lt' hm, UInt32.toNat_ofNat_of_lt' hn] at this
  · exact congrArg _

/-- Records of one size. -/
theorem length_flatMap_const {α β : Type} {g : α → List β} {k : Nat}
    (hg : ∀ x, (g x).length = k) (xs : List α) : (xs.flatMap g).length = k * xs.length := by
  induction xs with
  | nil => rfl
  | cons x xs ih =>
      rw [List.flatMap_cons, List.length_append, hg, ih, List.length_cons, Nat.mul_succ]
      omega

/-- Records of at least one byte. -/
theorem length_le_length_flatMap {α β : Type} {g : α → List β} (hg : ∀ x, 0 < (g x).length)
    (xs : List α) : xs.length ≤ (xs.flatMap g).length := by
  induction xs with
  | nil => exact Nat.le_refl 0
  | cons x xs ih =>
      have := hg x
      rw [List.flatMap_cons, List.length_append, List.length_cons]
      omega

end Kyber.Lib
