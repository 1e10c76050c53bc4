import Kyber.ModLoader.Types
import Kyber.Proofs.ByteBuffer
import Mathlib.Tactic.IntervalCases

/-!
# Swapping bytes, spelling guids and hashing names

Both conversions of the manifest formats undo themselves. For the 64-bit swap
this is read off bit by bit: each of its three lines exchanges the bits whose
index differs in one binary digit, so the whole function moves bit `i` to the
index with digits 8, 16 and 32 flipped, and flipping twice is nothing.

And every number is the hash of a name: `hashQuickLower_nameOf`. The last byte of
a name says what the low byte of its hash is, and the low byte of a hash says,
as a digit below 33, what the next step adds to the rest of it. So the digits of
the rest are spelled from the last to the first.
-/

namespace Kyber.ModLoader

open Kyber.Lib

/-- The bytes are taken from the other end, and the bits of a byte stay where they are. -/
theorem swapEndiannessU32_bit (v : UInt32) {i : Nat} (hi : i < 32) :
    (swapEndiannessU32 v).toBitVec.getLsbD i = v.toBitVec.getLsbD (i ^^^ 24) := by
  have hmasks : ∀ i < 32, (0xff : UInt32).toBitVec.getLsbD i = decide (i < 8) ∧
      (0xff00 : UInt32).toBitVec.getLsbD i = decide (8 ≤ i ∧ i < 16) ∧
      (0xff0000 : UInt32).toBitVec.getLsbD i = decide (16 ≤ i ∧ i < 24) ∧
      (0xff000000 : UInt32).toBitVec.getLsbD i = decide (24 ≤ i) := by decide
  have hindex : ∀ i < 32, i ^^^ 24 =
      if i < 8 then 24 + i else if i < 16 then 8 + i else if i < 24 then i - 8 else i - 24 := by
    decide
  obtain ⟨h0, h1, h2, h3⟩ := hmasks i hi
  rw [hindex i hi]
  simp only [swapEndiannessU32, UInt32.toBitVec_or, UInt32.toBitVec_and, BitVec.getLsbD_or,
    BitVec.getLsbD_and, h0, h1, h2, h3]
  simp only [UInt32.toBitVec_shiftLeft, UInt32.toBitVec_shiftRight, BitVec.shiftLeft_eq',
    BitVec.ushiftRight_eq', BitVec.getLsbD_shiftLeft, BitVec.getLsbD_ushiftRight, hi]
  by_cases h8 : i < 8
  · simp [h8, show ¬ 8 ≤ i by omega, show ¬ 16 ≤ i by omega, show ¬ 24 ≤ i by omega]
  by_cases h16 : i < 16
  · simp [h8, h16, Nat.not_lt.mp h8, show ¬ 16 ≤ i by omega, show ¬ 24 ≤ i by omega]
  by_cases h24 : i < 24
  · simp [h8, h16, h24, Nat.not_lt.mp h16, show ¬ 24 ≤ i by omega]
  · simp [h8, h16, h24, Nat.not_lt.mp h24]

theorem swapEndiannessU32_swap (v : UInt32) : swapEndiannessU32 (swapEndiannessU32 v) = v := by
  apply UInt32.eq_of_toBitVec_eq
  apply BitVec.eq_of_getLsbD_eq
  intro i hi
  have h : i ^^^ 24 < 2 ^ 5 := Nat.xor_lt_two_pow hi (by decide)
  rw [swapEndiannessU32_bit _ hi, swapEndiannessU32_bit _ h, Nat.xor_assoc, Nat.xor_self,
    Nat.xor_zero]

/-- A bit is taken from `k` places away: from below by the first mask, or from above by the
second one. -/
def Exchanges (m₁ m₂ : BitVec 64) (k i : Nat) : Prop :=
  (k ≤ i ∧ m₁.getLsbD (i - k) = true ∧ m₂.getLsbD (k + i) = false ∧ i ^^^ k = i - k) ∨
    (i < k ∨ m₁.getLsbD (i - k) = false) ∧ m₂.getLsbD (k + i) = true ∧ i ^^^ k = k + i

instance (m₁ m₂ : BitVec 64) (k i : Nat) : Decidable (Exchanges m₁ m₂ k i) :=
  inferInstanceAs (Decidable (_ ∨ _))

theorem getLsbD_swapLine (x : BitVec 64) {m₁ m₂ : BitVec 64} {k i : Nat} (hi : i < 64)
    (h : Exchanges m₁ m₂ k i) :
    ((x &&& m₁) <<< k ||| (x &&& m₂) >>> k).getLsbD i = x.getLsbD (i ^^^ k) := by
  simp only [BitVec.getLsbD_or, BitVec.getLsbD_and, BitVec.getLsbD_shiftLeft,
    BitVec.getLsbD_ushiftRight, hi]
  rcases h with ⟨hle, hfirst, hsecond, hindex⟩ | ⟨hfirst, hsecond, hindex⟩
  · simp [hfirst, hsecond, hindex, Nat.not_lt.mpr hle]
  · rcases hfirst with hlt | hfirst
    · simp [hlt, hsecond, hindex]
    · simp [hfirst, hsecond, hindex]

theorem swapLine32_bit (x : UInt64) {i : Nat} (hi : i < 64) :
    ((x &&& (0x00000000FFFFFFFF : UInt64)) <<< 32 |||
      (x &&& (0xFFFFFFFF00000000 : UInt64)) >>> 32).toBitVec.getLsbD i
      = x.toBitVec.getLsbD (i ^^^ 32) := by
  have hall : ∀ i < 64, Exchanges 0x00000000FFFFFFFF#64 0xFFFFFFFF00000000#64 32 i := by decide
  exact getLsbD_swapLine x.toBitVec hi (hall i hi)

theorem swapLine16_bit (x : UInt64) {i : Nat} (hi : i < 64) :
    ((x &&& (0x0000FFFF0000FFFF : UInt64)) <<< 16 |||
      (x &&& (0xFFFF0000FFFF0000 : UInt64)) >>> 16).toBitVec.getLsbD i
      = x.toBitVec.getLsbD (i ^^^ 16) := by
  have hall : ∀ i < 64, Exchanges 0x0000FFFF0000FFFF#64 0xFFFF0000FFFF0000#64 16 i := by decide
  exact getLsbD_swapLine x.toBitVec hi (hall i hi)

theorem swapLine8_bit (x : UInt64) {i : Nat} (hi : i < 64) :
    ((x &&& (0x00FF00FF00FF00FF : UInt64)) <<< 8 |||
      (x &&& (0xFF00FF00FF00FF00 : UInt64)) >>> 8).toBitVec.getLsbD i
      = x.toBitVec.getLsbD (i ^^^ 8) := by
  have hall : ∀ i < 64, Exchanges 0x00FF00FF00FF00FF#64 0xFF00FF00FF00FF00#64 8 i := by decide
  exact getLsbD_swapLine x.toBitVec hi (hall i hi)

theorem swapEndiannessU64_bit (x : UInt64) {i : Nat} (hi : i < 64) :
    (swapEndiannessU64 x).toBitVec.getLsbD i
      = x.toBitVec.getLsbD (i ^^^ 8 ^^^ 16 ^^^ 32) := by
  have h₁ : i ^^^ 8 < 2 ^ 6 := Nat.xor_lt_two_pow hi (by decide)
  have h₂ : i ^^^ 8 ^^^ 16 < 2 ^ 6 := Nat.xor_lt_two_pow h₁ (by decide)
  rw [swapEndiannessU64, swapLine8_bit _ hi, swapLine16_bit _ h₁, swapLine32_bit _ h₂]

theorem swapEndiannessU64_swap (v : UInt64) : swapEndiannessU64 (swapEndiannessU64 v) = v := by
  apply UInt64.eq_of_toBitVec_eq
  apply BitVec.eq_of_getLsbD_eq
  intro i hi
  have h₁ : i ^^^ 8 < 2 ^ 6 := Nat.xor_lt_two_pow hi (by decide)
  have h₂ : i ^^^ 8 ^^^ 16 < 2 ^ 6 := Nat.xor_lt_two_pow h₁ (by decide)
  have h₃ : i ^^^ 8 ^^^ 16 ^^^ 32 < 2 ^ 6 := Nat.xor_lt_two_pow h₂ (by decide)
  rw [swapEndiannessU64_bit _ hi, swapEndiannessU64_bit _ h₃]
  have hall : ∀ i < 64, i ^^^ 8 ^^^ 16 ^^^ 32 ^^^ 8 ^^^ 16 ^^^ 32 = i := by decide
  rw [hall i hi]

/-! ## Guids -/

@[simp] theorem Guid.length_toFrostyBE (g : Guid) : g.toFrostyBE.length = 16 := rfl

theorem Guid.fromFrostyBE_toFrostyBE (g : Guid) :
    Guid.fromFrostyBE (Vector.ofFn fun i : Fin 16 => g.toFrostyBE.getD i 0) = g := by
  have hbytes : Guid.fromFrostyBE (Vector.ofFn fun i : Fin 16 => g.toFrostyBE.getD i 0) =
      #v[g[0], g[1], g[2], g[3], g[4], g[5], g[6], g[7], g[8], g[9], g[10], g[11], g[12], g[13],
        g[14], g[15]] := by
    simp [Guid.fromFrostyBE, Guid.toFrostyBE]
  rw [hbytes]
  ext i hi
  interval_cases i <;> rfl

/-! ## Names with a given hash -/

/-- `HashQuickLower` reads the byte and leaves it as it is. -/
def IsPlain (c : Nat) : Prop := 0 < c ∧ c < 256 ∧ ¬ (65 ≤ c ∧ c ≤ 90)

instance (c : Nat) : Decidable (IsPlain c) := inferInstanceAs (Decidable (_ ∧ _))

theorem toLowerByte_plain {c : Nat} (h : IsPlain c) :
    toLowerByte (UInt8.ofNat c) = UInt32.ofNat c := by
  have hall : ∀ c < 256, IsPlain c → toLowerByte (UInt8.ofNat c) = UInt32.ofNat c := by
    decide +kernel
  exact hall c h.2.1 h

theorem ofNat_ne_zero_of_plain {c : Nat} (h : IsPlain c) : UInt8.ofNat c ≠ 0 := by
  have hall : ∀ c < 256, IsPlain c → UInt8.ofNat c ≠ 0 := by decide +kernel
  exact hall c h.2.1 h

/-- The hash of a name, before it is cut off at 32 bits. -/
def hashNat (hash : Nat) (cs : List Nat) : Nat := cs.foldl (fun hash c => hash * 33 ^^^ c) hash

theorem hashQuickLower_plain {cs : List Nat} (h : ∀ c ∈ cs, IsPlain c) :
    hashQuickLower (cs.map UInt8.ofNat) = UInt32.ofNat (hashNat 5381 cs) := by
  have hread : cStr (cs.map UInt8.ofNat) = cs.map UInt8.ofNat := by
    refine List.takeWhile_eq_self_iff.mpr fun b hb => ?_
    obtain ⟨c, hc, rfl⟩ := List.mem_map.mp hb
    exact decide_eq_true (ofNat_ne_zero_of_plain (h c hc))
  have hfold : ∀ hash : Nat, (cs.map UInt8.ofNat).foldl
      (fun hash b => hash * 33 ^^^ toLowerByte b) (UInt32.ofNat hash) =
        UInt32.ofNat (hashNat hash cs) := by
    clear hread
    induction cs with
    | nil => exact fun _ => rfl
    | cons c cs ih =>
        intro hash
        obtain ⟨hc, hcs⟩ := List.forall_mem_cons.mp h
        rw [List.map_cons, List.foldl_cons, toLowerByte_plain hc, hashNat, List.foldl_cons,
          ← hashNat, ← ih hcs, UInt32.ofNat_xor, UInt32.ofNat_mul]
        rfl
  rw [hashQuickLower, hread]
  exact hfold 5381

/-- The low byte is apart from the rest. -/
theorem hash_step {q w w' : Nat} (hw' : w' < 256) :
    (256 * q + w) * 33 ^^^ (33 * w % 256 ^^^ w') = 256 * (33 * q + 33 * w / 256) + w' := by
  have hlow : 33 * w % 256 ^^^ w' < 2 ^ 8 := Nat.xor_lt_two_pow (Nat.mod_lt _ (by decide)) hw'
  have hsplit : (256 * q + w) * 33 = 256 * (33 * q + 33 * w / 256) + 33 * w % 256 := by omega
  have hdiv : ((256 * q + w) * 33 ^^^ (33 * w % 256 ^^^ w')) / 2 ^ 8 = 33 * q + 33 * w / 256 := by
    rw [Nat.xor_div_two_pow, Nat.div_eq_of_lt hlow, Nat.xor_zero]
    omega
  have hmod : ((256 * q + w) * 33 ^^^ (33 * w % 256 ^^^ w')) % 2 ^ 8 = w' := by
    rw [Nat.xor_mod_two_pow, Nat.mod_eq_of_lt hlow, hsplit, ← Nat.xor_assoc]
    have hself : (256 * (33 * q + 33 * w / 256) + 33 * w % 256) % 2 ^ 8 = 33 * w % 256 := by omega
    rw [hself, Nat.xor_self, Nat.zero_xor]
  omega

/-- A low byte that adds `e` to the rest, and goes on to the low byte `w` with a plain one. -/
def pick (e w : Nat) : Nat :=
  let first := (256 * e + 32) / 33
  if IsPlain (33 * first % 256 ^^^ w) then first else first + 1

theorem isPlain_next :
    ∀ x < 33, ∀ c ∈ 0 :: List.range' 65 26, IsPlain ((x + 33) ^^^ (x ^^^ c)) := by
  decide

theorem isPlain_of_not {x w : Nat} (hx : x < 33) (hw : w < 256) (h : ¬ IsPlain (x ^^^ w)) :
    IsPlain ((x + 33) ^^^ w) := by
  have hlt : x ^^^ w < 2 ^ 8 := Nat.xor_lt_two_pow (by omega) hw
  have hmem : x ^^^ w ∈ 0 :: List.range' 65 26 := by
    rw [List.mem_cons, List.mem_range'_1]
    unfold IsPlain at h
    omega
  have hback : x ^^^ (x ^^^ w) = w := by rw [← Nat.xor_assoc, Nat.xor_self, Nat.zero_xor]
  have hnext := isPlain_next x hx _ hmem
  rwa [hback] at hnext

theorem pick_spec {e w : Nat} (he : e < 33) (hw : w < 256) :
    pick e w < 256 ∧ 33 * pick e w / 256 = e ∧ IsPlain (33 * pick e w % 256 ^^^ w) := by
  obtain ⟨first, hfirst⟩ : ∃ first, first = (256 * e + 32) / 33 := ⟨_, rfl⟩
  have hlow : 256 * e ≤ 33 * first ∧ 33 * first < 256 * e + 33 := by omega
  have hdigit : 33 * first / 256 = e := by
    rw [Nat.div_eq_iff (by decide)]
    omega
  have hdigit' : 33 * (first + 1) / 256 = e := by
    rw [Nat.div_eq_iff (by decide)]
    omega
  have hnext : 33 * (first + 1) % 256 = 33 * first % 256 + 33 := by omega
  unfold pick
  rw [← hfirst]
  dsimp only
  split
  next h => exact ⟨by omega, hdigit, h⟩
  next h =>
    refine ⟨by omega, hdigit', ?_⟩
    rw [hnext]
    exact isPlain_of_not (by omega) hw h

/-- The low byte to start from, and the bytes that add the digits and end at the low byte `w`. -/
def spell (w : Nat) : List Nat → Nat × List Nat
  | [] => (w, [])
  | e :: es =>
      let rest := spell w es
      (pick e rest.1, (33 * pick e rest.1 % 256 ^^^ rest.1) :: rest.2)

theorem spell_spec {w : Nat} (hw : w < 256) {es : List Nat} (hes : ∀ e ∈ es, e < 33) :
    (spell w es).1 < 256 ∧ (∀ c ∈ (spell w es).2, IsPlain c) ∧
      ∀ q, hashNat (256 * q + (spell w es).1) (spell w es).2 =
        256 * es.foldl (fun q e => 33 * q + e) q + w := by
  induction es with
  | nil => exact ⟨hw, List.forall_mem_nil _, fun _ => rfl⟩
  | cons e es ih =>
      obtain ⟨he, hes⟩ := List.forall_mem_cons.mp hes
      obtain ⟨hlow, hplain, hhash⟩ := ih hes
      obtain ⟨hpick, hdigit, hfirst⟩ := pick_spec he hlow
      refine ⟨hpick, List.forall_mem_cons.mpr ⟨hfirst, hplain⟩, fun q => ?_⟩
      rw [spell, hashNat, List.foldl_cons, hash_step hlow, hdigit, ← hashNat, hhash,
        List.foldl_cons]

def fiveDigits (n : Nat) : List Nat :=
  [n / 33 ^ 4, n / 33 ^ 3 % 33, n / 33 ^ 2 % 33, n / 33 % 33, n % 33]

theorem lt_of_mem_fiveDigits {n : Nat} (h : n < 33 ^ 5) : ∀ e ∈ fiveDigits n, e < 33 := by
  intro e he
  simp only [fiveDigits, List.mem_cons, List.not_mem_nil, or_false] at he
  omega

theorem foldl_fiveDigits (q n : Nat) :
    (fiveDigits n).foldl (fun q e => 33 * q + e) q = 33 ^ 5 * q + n := by
  simp only [fiveDigits, List.foldl_cons, List.foldl_nil]
  omega

/-- What is missing in the rest of a hash, behind `2_` and a first byte that adds the digit 9. The
hash of `2_` is `256 * 22888 + 40`. -/
def missing (v : Nat) : Nat :=
  (v / 256 + (2 ^ 24 - 33 ^ 5 * (33 * (33 * 22888 + 5) + 9) % 2 ^ 24)) % 2 ^ 24

theorem missing_spec {v : Nat} (hv : v < 2 ^ 32) : missing v < 33 ^ 5 ∧
    (256 * (33 ^ 5 * (33 * (33 * 22888 + 5) + 9) + missing v) + v % 256) % 2 ^ 32 = v := by
  unfold missing
  omega

/-- The bytes of `nameOf`. -/
def nameCodes (v : Nat) : List Nat :=
  let rest := spell (v % 256) (9 :: fiveDigits (missing v))
  (33 * 40 % 256 ^^^ rest.1) :: rest.2

/-- A name that has the hash `v` behind `2_`. -/
def nameOf (v : Nat) : ByteString := (nameCodes v).map UInt8.ofNat

theorem isPlain_of_nine : ∀ w < 256, 33 * w / 256 = 9 → IsPlain (33 * 40 % 256 ^^^ w) := by
  decide +kernel

theorem nameCodes_spec {v : Nat} (hv : v < 2 ^ 32) :
    (∀ c ∈ nameCodes v, IsPlain c) ∧
      hashNat (256 * 22888 + 40) (nameCodes v) % 2 ^ 32 = v := by
  obtain ⟨hmissing, hsum⟩ := missing_spec hv
  have hdigits := lt_of_mem_fiveDigits hmissing
  have hw : v % 256 < 256 := Nat.mod_lt _ (by decide)
  obtain ⟨hlow, hplain, hhash⟩ :=
    spell_spec hw (List.forall_mem_cons.mpr ⟨show 9 < 33 by decide, hdigits⟩)
  have hnine : 33 * (spell (v % 256) (9 :: fiveDigits (missing v))).1 / 256 = 9 :=
    (pick_spec (by decide) (spell_spec hw hdigits).1).2.1
  refine ⟨List.forall_mem_cons.mpr ⟨isPlain_of_nine _ hlow hnine, hplain⟩, ?_⟩
  rw [nameCodes, hashNat, List.foldl_cons, hash_step hlow, ← hashNat, hhash, List.foldl_cons,
    foldl_fiveDigits]
  exact hsum

theorem hashQuickLower_nameOf {v : Nat} (hv : v < 2 ^ 32) :
    hashQuickLower ([0x32, 0x5f] ++ nameOf v) = UInt32.ofNat v := by
  obtain ⟨hplain, hhash⟩ := nameCodes_spec hv
  have hcodes : [0x32, 0x5f] ++ nameOf v = (0x32 :: 0x5f :: nameCodes v).map UInt8.ofNat := rfl
  have hall : ∀ c ∈ 0x32 :: 0x5f :: nameCodes v, IsPlain c :=
    List.forall_mem_cons.mpr ⟨by decide, List.forall_mem_cons.mpr ⟨by decide, hplain⟩⟩
  have hstart : (5381 * 33 ^^^ 0x32) * 33 ^^^ 0x5f = 256 * 22888 + 40 := by decide
  rw [hcodes, hashQuickLower_plain hall, hashNat, List.foldl_cons, List.foldl_cons, hstart,
    ← hashNat]
  refine UInt32.toNat_inj.mp ?_
  rw [UInt32.toNat_ofNat', UInt32.toNat_ofNat', hhash, Nat.mod_eq_of_lt hv]

end Kyber.ModLoader
