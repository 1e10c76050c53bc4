import Kyber.ModLoader.LocalizationChunk

/-!
# One byte or two

A character behind the first 0x100 entries of the histogram is written as a shift and an offset:
the entry at the shift says how many times 128 are to be added to the offset. The shifts are
tried in the order in which they were collected, from entry 0x1FE down, and the first is taken
that does not leave more than 127. It is not asked whether it leaves less than nothing, and an
entry from 0x100 on was collected by its low byte, which can be any byte at all.

So what is emitted depends on one entry, the last that is accepted, and it is right exactly if
that entry is right (`Fits`). Where none is accepted there was no pair to be found, so the
character is left out rightly. A character that stands among the first 0x80 entries is emitted as
a byte that stands for another one.
-/

namespace Kyber.ModLoader

/-! ## What is promised -/

/-- Two bytes that stand for the character at an index. -/
structure IsPair (values : WideString) (s t : UInt8) (i : Nat) : Prop where
  shift : 0x80 ≤ s
  table : values.getD s.toNat 0 < 0x80
  offset : 0x80 ≤ t
  sum : (values.getD s.toNat 0).toNat * 128 + (t.toNat - 0x80) = i

/-- What may be emitted for the character at an index. -/
inductive Emitted (values : WideString) (i : Nat) : WideString → Prop
  | one : i ≤ 0xFF → Emitted values i [UInt16.ofNat i]
  | two {s t : UInt8} : 0xFF < i → IsPair values s t i →
      Emitted values i [s.toUInt16, t.toUInt16]
  | none : 0xFF < i → (∀ s t, ¬ IsPair values s t i) → Emitted values i []

/-- A character that has one byte or two. -/
def Supported (values : WideString) (b : UInt16) : Prop :=
  b < 0x80 ∨ ∃ i, values.findIdx? (· == b) = some i ∧ (i ≤ 0xFF ∨ ∃ s t, IsPair values s t i)

/-- What the bytes of a string stand for. -/
def decodeString (values : WideString) : List UInt8 → WideString
  | [] => []
  | s :: rest =>
      if s < 0x80 then
        s.toUInt16 :: decodeString values rest
      else if values.getD s.toNat 0 < 0x80 then
        match rest with
        | [] => []
        | t :: rest =>
            values.getD ((values.getD s.toNat 0).toNat * 128 + (t.toNat - 0x80)) 0
              :: decodeString values rest
      else
        values.getD s.toNat 0 :: decodeString values rest

open Classical in
/-- Every character of the table is emitted as it should be, and the bytes of the string stand
for its supported characters. -/
def HistogramEncodes (values str : WideString) : Prop :=
  ∃ shifts, histogramShifts values = .ok shifts ∧
    (∀ b ∈ str, 0x80 ≤ b → ∀ i, values.findIdx? (· == b) = some i →
      Emitted values i (encodeChar values shifts b)) ∧
    decodeString values ((encodeString values shifts str).map UInt16.toUInt8)
      = str.filter (Supported values)

/-! ## When it is kept -/

/-- The entry at `j` is collected, and its low byte would be taken as the shift for an index. -/
structure Accepts (values : WideString) (i j : Nat) : Prop where
  low : 0x80 ≤ j
  high : j ≤ 0x1FE
  collected : values.getD j 0 < 0x80
  near : i < ((values.getD (j % 0x100) 0).toNat + 1) * 128

/-- The low byte of `j` is a shift indeed, and does not lead past the index. -/
structure Fits (values : WideString) (i j : Nat) : Prop where
  shift : 0x80 ≤ j % 0x100
  table : values.getD (j % 0x100) 0 < 0x80
  behind : (values.getD (j % 0x100) 0).toNat * 128 ≤ i

/-- The character is not among the first 0x80 of the table, and if it takes two bytes, the last
entry that is accepted fits. -/
def Encodable (values : WideString) (b : UInt16) : Prop :=
  ∀ i, values.findIdx? (· == b) = some i → 0x80 ≤ i ∧
    (0xFF < i → ∀ j, Accepts values i j → (∀ k, Accepts values i k → k ≤ j) → Fits values i j)

/-! ## The shift that is taken -/

/-- In a list that goes down, what is found first is the largest. -/
theorem find?_eq_some_iff_of_gt {p : Nat → Bool} {l : List Nat} (h : l.Pairwise (· > ·))
    {j : Nat} : l.find? p = some j ↔ (j ∈ l ∧ p j) ∧ ∀ k ∈ l, p k → k ≤ j := by
  induction l with
  | nil => simp
  | cons a l ih =>
      obtain ⟨ha, hl⟩ := List.pairwise_cons.mp h
      cases hp : p a with
      | true =>
          rw [List.find?_cons_of_pos hp, Option.some.injEq]
          constructor
          · rintro rfl
            refine ⟨⟨List.mem_cons_self, hp⟩, ?_⟩
            intro k hk _
            obtain rfl | hk := List.mem_cons.mp hk
            · exact Nat.le_refl _
            · exact Nat.le_of_lt (ha k hk)
          · rintro ⟨⟨hj, -⟩, hmax⟩
            have hle := hmax a List.mem_cons_self hp
            obtain rfl | hj := List.mem_cons.mp hj
            · rfl
            · exact absurd (ha j hj) (Nat.not_lt.mpr hle)
      | false =>
          rw [List.find?_cons_of_neg (by simp [hp]), ih hl, List.mem_cons]
          have hne : p j → j ≠ a := by
            rintro hj rfl
            rw [hp] at hj
            cases hj
          constructor
          · rintro ⟨⟨hj, hpj⟩, hmax⟩
            refine ⟨⟨.inr hj, hpj⟩, ?_⟩
            intro k hk hpk
            obtain rfl | hk := List.mem_cons.mp hk
            · rw [hp] at hpk
              cases hpk
            · exact hmax k hk hpk
          · rintro ⟨⟨hj, hpj⟩, hmax⟩
            exact ⟨⟨hj.resolve_left (hne hpj), hpj⟩,
              fun k hk => hmax k (List.mem_cons_of_mem a hk)⟩

section

variable {values : WideString}

theorem shifted_lt_iff {i j : Nat} :
    shifted values i (UInt8.ofNat j) < 0x80
      ↔ i < ((values.getD (j % 0x100) 0).toNat + 1) * 128 := by
  have hj : (UInt8.ofNat j).toNat = j % 0x100 := UInt8.toNat_ofNat'
  rw [shifted, hj]
  omega

/-- The shifts that are collected, before they are made bytes. -/
def collected (values : WideString) : List Nat :=
  (List.range' 0x80 0x17F).reverse.filter fun i => values.getD i 0 < 0x80

theorem histogramShifts_eq (h : 0x1FF ≤ values.length) :
    histogramShifts values = .ok ((collected values).map UInt8.ofNat) := by
  rw [histogramShifts, if_neg (by omega)]
  rfl

theorem mem_collected {j : Nat} :
    j ∈ collected values ↔ (0x80 ≤ j ∧ j ≤ 0x1FE) ∧ values.getD j 0 < 0x80 := by
  rw [collected, List.mem_filter, List.mem_reverse, List.mem_range'_1, decide_eq_true_iff]
  refine and_congr_left fun _ => ?_
  omega

theorem collected_pairwise : (collected values).Pairwise (· > ·) :=
  (List.pairwise_reverse.mpr List.pairwise_lt_range').filter _

theorem accepts_iff {i j : Nat} :
    Accepts values i j
      ↔ j ∈ collected values ∧ shifted values i (UInt8.ofNat j) < 0x80 := by
  rw [mem_collected, shifted_lt_iff]
  constructor
  · rintro ⟨hlow, hhigh, hcollected, hnear⟩
    exact ⟨⟨⟨hlow, hhigh⟩, hcollected⟩, hnear⟩
  · rintro ⟨⟨⟨hlow, hhigh⟩, hcollected⟩, hnear⟩
    exact ⟨hlow, hhigh, hcollected, hnear⟩

/-- What is emitted for a character that takes two bytes. -/
theorem encodeChar_cases {b : UInt16} {i : Nat} (hb : 0x80 ≤ b)
    (hi : values.findIdx? (· == b) = some i) (hfar : 0xFF < i) :
    (∃ j, Accepts values i j ∧ (∀ k, Accepts values i k → k ≤ j) ∧
      encodeChar values ((collected values).map UInt8.ofNat) b
        = [(UInt8.ofNat j).toUInt16,
          (UInt8.ofInt (shifted values i (UInt8.ofNat j) + 0x80)).toUInt16]) ∨
    ((∀ j, ¬ Accepts values i j) ∧
      encodeChar values ((collected values).map UInt8.ofNat) b = []) := by
  rw [encodeChar, if_neg (UInt16.not_lt.mpr hb), hi]
  dsimp only
  rw [if_neg (Nat.not_le.mpr hfar), List.find?_map]
  cases hfind : (collected values).find?
      ((fun shift => decide (shifted values i shift < 0x80)) ∘ UInt8.ofNat) with
  | none =>
      refine .inr ⟨?_, rfl⟩
      intro j hj
      obtain ⟨hmem, hlt⟩ := accepts_iff.mp hj
      exact List.find?_eq_none.mp hfind j hmem (decide_eq_true hlt)
  | some j =>
      obtain ⟨⟨hmem, hlt⟩, hmax⟩ := (find?_eq_some_iff_of_gt collected_pairwise).mp hfind
      refine .inl ⟨j, accepts_iff.mpr ⟨hmem, of_decide_eq_true hlt⟩, ?_, rfl⟩
      intro k hk
      obtain ⟨hmem, hlt⟩ := accepts_iff.mp hk
      exact hmax k hmem (decide_eq_true hlt)

/-! ## One character -/

/-- The shift of a pair is accepted. -/
theorem IsPair.accepts {s t : UInt8} {i : Nat} (h : IsPair values s t i) :
    Accepts values i s.toNat := by
  obtain ⟨hs, htable, ht, hsum⟩ := h
  have hlow : 0x80 ≤ s.toNat := hs
  have hlt := s.toNat_lt
  have htlt := t.toNat_lt
  refine ⟨hlow, by omega, htable, ?_⟩
  rw [Nat.mod_eq_of_lt (by omega)]
  omega

/-- What is emitted with the last entry that is accepted is a pair exactly if the entry fits. -/
theorem isPair_iff_fits {i j : Nat} (h : Accepts values i j) :
    IsPair values (UInt8.ofNat j) (UInt8.ofInt (shifted values i (UInt8.ofNat j) + 0x80)) i
      ↔ Fits values i j := by
  have hj : (UInt8.ofNat j).toNat = j % 0x100 := UInt8.toNat_ofNat'
  have hnear := h.near
  constructor
  · rintro ⟨hs, htable, ht, hsum⟩
    rw [hj] at htable hsum
    refine ⟨?_, htable, ?_⟩
    · rw [← hj]
      exact hs
    · omega
  · rintro ⟨hs, htable, hbehind⟩
    have ht : (UInt8.ofInt (shifted values i (UInt8.ofNat j) + 0x80)).toNat
        = i - (values.getD (j % 0x100) 0).toNat * 128 + 0x80 := by
      rw [UInt8.ofInt, UInt8.toNat_ofNat', shifted, hj]
      omega
    refine ⟨?_, ?_, ?_, ?_⟩
    · rw [UInt8.le_iff_toNat_le, hj]
      exact hs
    · rw [hj]
      exact htable
    · rw [UInt8.le_iff_toNat_le, ht]
      exact Nat.le_add_left _ _
    · rw [hj, ht]
      omega

theorem emitted_pair_iff {s t : UInt8} {i : Nat} (hfar : 0xFF < i) :
    Emitted values i [s.toUInt16, t.toUInt16] ↔ IsPair values s t i := by
  constructor
  · intro h
    generalize hl : [s.toUInt16, t.toUInt16] = l at h
    cases h with
    | one => simp at hl
    | none => cases hl
    | two _ hpair =>
        simp only [List.cons.injEq, UInt8.toUInt16_inj, and_true] at hl
        obtain ⟨rfl, rfl⟩ := hl
        exact hpair
  · exact .two hfar

/-- A character is emitted as it should be exactly if the last entry that is accepted fits. -/
theorem emitted_iff {b : UInt16} {i : Nat} (hb : 0x80 ≤ b)
    (hi : values.findIdx? (· == b) = some i) :
    Emitted values i (encodeChar values ((collected values).map UInt8.ofNat) b)
      ↔ (0xFF < i → ∀ j, Accepts values i j → (∀ k, Accepts values i k → k ≤ j) →
        Fits values i j) := by
  by_cases hfar : 0xFF < i
  · obtain ⟨j, hj, hmax, heq⟩ | ⟨hnone, heq⟩ := encodeChar_cases hb hi hfar
    · rw [heq, emitted_pair_iff hfar, isPair_iff_fits hj]
      constructor
      · intro hfits _ k hk hkmax
        obtain rfl : k = j := Nat.le_antisymm (hmax k hk) (hkmax j hj)
        exact hfits
      · intro h
        exact h hfar j hj hmax
    · rw [heq]
      constructor
      · intro _ _ j hj
        exact absurd hj (hnone j)
      · intro _
        exact .none hfar fun s t hpair => hnone _ hpair.accepts
  · have heq : encodeChar values ((collected values).map UInt8.ofNat) b = [UInt16.ofNat i] := by
      rw [encodeChar, if_neg (UInt16.not_lt.mpr hb), hi]
      dsimp only
      rw [if_pos (Nat.not_lt.mp hfar)]
    rw [heq]
    exact iff_of_true (.one (Nat.not_lt.mp hfar)) fun h => absurd h hfar

/-! ## Decoding -/

theorem getD_of_findIdx? {b : UInt16} {i : Nat} (hi : values.findIdx? (· == b) = some i) :
    values.getD i 0 = b := by
  obtain ⟨hlt, heq, -⟩ := List.findIdx?_eq_some_iff_getElem.mp hi
  rw [List.getD_eq_getElem?_getD, List.getElem?_eq_getElem hlt]
  exact beq_iff_eq.mp heq

/-- The character that the bytes of one stand for. -/
def decodedAs (values : WideString) (b : UInt16) : UInt16 :=
  if b < 0x80 then
    b
  else
    match values.findIdx? (· == b) with
    | none => b
    | some i => if i < 0x80 then UInt16.ofNat i else b

theorem decodeString_ascii {s : UInt8} (rest : List UInt8) (h : s < 0x80) :
    decodeString values (s :: rest) = s.toUInt16 :: decodeString values rest := by
  rw [decodeString.eq_def]
  exact if_pos h

theorem decodeString_entry {s : UInt8} (rest : List UInt8) (h : 0x80 ≤ s)
    (htable : 0x80 ≤ values.getD s.toNat 0) :
    decodeString values (s :: rest) = values.getD s.toNat 0 :: decodeString values rest := by
  rw [decodeString.eq_def]
  exact (if_neg (UInt8.not_lt.mpr h)).trans (if_neg (UInt16.not_lt.mpr htable))

theorem decodeString_pair {s t : UInt8} {i : Nat} (h : IsPair values s t i) (rest : List UInt8) :
    decodeString values (s :: t :: rest) = values.getD i 0 :: decodeString values rest := by
  rw [decodeString.eq_def]
  refine (if_neg (UInt8.not_lt.mpr h.shift)).trans ((if_pos h.table).trans ?_)
  dsimp only
  rw [h.sum]

/-- A byte below 0x80 stands for itself. -/
theorem decodeString_self {b : UInt16} (h : b.toNat < 0x80) (rest : List UInt8) :
    decodeString values (b.toUInt8 :: rest) = b :: decodeString values rest := by
  have hbyte : b.toUInt8.toNat = b.toNat := by
    rw [UInt16.toNat_toUInt8]
    exact Nat.mod_eq_of_lt (by omega)
  have hback : b.toUInt8.toUInt16 = b := by
    apply UInt16.toNat_inj.mp
    rw [UInt8.toNat_toUInt16, hbyte]
  rw [decodeString_ascii rest (by rwa [UInt8.lt_iff_toNat_lt, hbyte]), hback]

/-- The first entries of the table are read as ASCII, the others are found by their index. -/
theorem decodeString_index {b : UInt16} {i : Nat} (hb : 0x80 ≤ b)
    (hi : values.findIdx? (· == b) = some i) (hnear : i ≤ 0xFF) (rest : List UInt8) :
    decodeString values ((UInt16.ofNat i).toUInt8 :: rest)
      = decodedAs values b :: decodeString values rest := by
  have hindex : (UInt16.ofNat i).toNat = i := by
    rw [UInt16.toNat_ofNat']
    omega
  rw [decodedAs, if_neg (UInt16.not_lt.mpr hb), hi]
  dsimp only
  by_cases hlow : i < 0x80
  · rw [if_pos hlow]
    exact decodeString_self (by rwa [hindex]) rest
  · have hbyte : (UInt16.ofNat i).toUInt8.toNat = i := by
      rw [UInt16.toNat_toUInt8, hindex]
      omega
    have hget : values.getD (UInt16.ofNat i).toUInt8.toNat 0 = b := by
      rw [hbyte]
      exact getD_of_findIdx? hi
    have hle : 0x80 ≤ (UInt16.ofNat i).toUInt8 := by
      rw [UInt8.le_iff_toNat_le, hbyte]
      exact Nat.not_lt.mp hlow
    rw [if_neg hlow, decodeString_entry rest hle (by rwa [hget]), hget]

theorem supported_iff {b : UInt16} (hb : 0x80 ≤ b) :
    Supported values b ↔
      ∃ i, values.findIdx? (· == b) = some i ∧ (i ≤ 0xFF ∨ ∃ s t, IsPair values s t i) :=
  or_iff_right (UInt16.not_lt.mpr hb)

open Classical in
/-- The bytes of one character, in front of others. -/
theorem decodeString_encodeChar {shifts : List UInt8} {b : UInt16}
    (h : 0x80 ≤ b → ∀ i, values.findIdx? (· == b) = some i →
      Emitted values i (encodeChar values shifts b)) (rest : List UInt8) :
    decodeString values ((encodeChar values shifts b).map UInt16.toUInt8 ++ rest)
      = (if Supported values b then [decodedAs values b] else []) ++ decodeString values rest := by
  by_cases hb : b < 0x80
  · rw [encodeChar, if_pos hb, if_pos (.inl hb), decodedAs, if_pos hb]
    exact decodeString_self hb rest
  have hle : 0x80 ≤ b := UInt16.not_lt.mp hb
  cases hi : values.findIdx? (· == b) with
  | none =>
      have hsupp : ¬ Supported values b := by
        rw [supported_iff hle, hi]
        simp
      rw [encodeChar, if_neg hb, hi, if_neg hsupp]
      rfl
  | some i =>
      have hem := h hle i hi
      generalize encodeChar values shifts b = out at hem
      cases hem with
      | one hnear =>
          rw [if_pos (.inr ⟨i, hi, .inl hnear⟩)]
          exact decodeString_index hle hi hnear rest
      | two hfar hpair =>
          have hdecoded : decodedAs values b = values.getD i 0 := by
            rw [decodedAs, if_neg hb, hi, getD_of_findIdx? hi]
            exact if_neg (by omega)
          rw [if_pos (.inr ⟨i, hi, .inr ⟨_, _, hpair⟩⟩), List.map_cons, List.map_cons,
            UInt8.toUInt8_toUInt16, UInt8.toUInt8_toUInt16, hdecoded]
          exact decodeString_pair hpair rest
      | none hfar hnone =>
          have hsupp : ¬ Supported values b := by
            rw [supported_iff hle, hi]
            rintro ⟨i', hi', hnear | ⟨s, t, hpair⟩⟩
            · cases hi'
              omega
            · cases hi'
              exact hnone s t hpair
          rw [if_neg hsupp]
          rfl

open Classical in
theorem decodeString_encodeString {shifts : List UInt8} {str : WideString}
    (h : ∀ b ∈ str, 0x80 ≤ b → ∀ i, values.findIdx? (· == b) = some i →
      Emitted values i (encodeChar values shifts b)) :
    decodeString values ((encodeString values shifts str).map UInt16.toUInt8)
      = (str.filter (Supported values)).map (decodedAs values) := by
  induction str with
  | nil => rfl
  | cons b str ih =>
      rw [encodeString, List.flatMap_cons, List.map_append,
        decodeString_encodeChar (h b List.mem_cons_self), List.filter_cons]
      have ih := ih fun c hc => h c (List.mem_cons_of_mem b hc)
      rw [encodeString] at ih
      rw [ih]
      by_cases hb : Supported values b
      · rw [if_pos hb, if_pos (decide_eq_true hb)]
        rfl
      · rw [if_neg hb, if_neg (by simpa using hb)]
        rfl

theorem decodedAs_eq_iff {b : UInt16} {i : Nat} (hb : 0x80 ≤ b)
    (hi : values.findIdx? (· == b) = some i) : decodedAs values b = b ↔ 0x80 ≤ i := by
  rw [decodedAs, if_neg (UInt16.not_lt.mpr hb), hi]
  dsimp only
  by_cases hlow : i < 0x80
  · have hle : 0x80 ≤ b.toNat := hb
    rw [if_pos hlow]
    refine iff_of_false ?_ (Nat.not_le.mpr hlow)
    intro heq
    have := congrArg UInt16.toNat heq
    rw [UInt16.toNat_ofNat_of_lt' (Nat.lt_trans hlow (by decide))] at this
    omega
  · rw [if_neg hlow]
    exact iff_of_true rfl (Nat.not_lt.mp hlow)

/-- The encoding of a string is right exactly if each of its characters can be encoded. -/
theorem histogramEncodes_iff (h : 0x1FF ≤ values.length) (str : WideString) :
    HistogramEncodes values str ↔ ∀ b ∈ str, 0x80 ≤ b → Encodable values b := by
  classical
  constructor
  · rintro ⟨shifts, hshifts, hemitted, hdecode⟩ b hb hle i hi
    rw [decodeString_encodeString hemitted] at hdecode
    obtain rfl := Except.ok.inj ((histogramShifts_eq h).symm.trans hshifts)
    refine ⟨?_, (emitted_iff hle hi).mp (hemitted b hb hle i hi)⟩
    by_contra hlow
    have hnear : i ≤ 0xFF := by omega
    have hsupp : Supported values b := .inr ⟨i, hi, .inl hnear⟩
    have hmem : b ∈ str.filter (Supported values) :=
      List.mem_filter.mpr ⟨hb, by simpa using hsupp⟩
    have hself := List.map_inj_left.mp (hdecode.trans (List.map_id _).symm) b hmem
    exact hlow ((decodedAs_eq_iff hle hi).mp hself)
  · intro henc
    have hemitted : ∀ b ∈ str, 0x80 ≤ b → ∀ i, values.findIdx? (· == b) = some i →
        Emitted values i (encodeChar values ((collected values).map UInt8.ofNat) b) :=
      fun b hb hle i hi => (emitted_iff hle hi).mpr (henc b hb hle i hi).2
    refine ⟨_, histogramShifts_eq h, hemitted, ?_⟩
    rw [decodeString_encodeString hemitted]
    refine (List.map_congr_left ?_).trans (List.map_id _)
    intro b hb
    have hmem := (List.mem_filter.mp hb).1
    by_cases hle : 0x80 ≤ b
    · cases hi : values.findIdx? (· == b) with
      | none =>
          rw [decodedAs, if_neg (UInt16.not_lt.mpr hle), hi]
          rfl
      | some i => exact (decodedAs_eq_iff hle hi).mpr (henc b hmem hle i hi).1
    · rw [decodedAs, if_pos (UInt16.not_le.mp hle)]
      rfl

end

/-- A table of 0x1FF entries with one shift in it. -/
def tableWithShift (entry : Nat) (shift : UInt16) : WideString :=
  (List.range 0x1FF).map fun i => if i = entry then shift else UInt16.ofNat (0x1000 + i)

theorem length_tableWithShift (entry : Nat) (shift : UInt16) :
    0x1FF ≤ (tableWithShift entry shift).length := by
  simp [tableWithShift]

theorem getD_tableWithShift {i : Nat} (hi : i ≤ 0x1FE) (entry : Nat) (shift : UInt16) :
    (tableWithShift entry shift).getD i 0
      = if i = entry then shift else UInt16.ofNat (0x1000 + i) := by
  rw [tableWithShift, List.getD_eq_getElem?_getD, List.getElem?_map,
    List.getElem?_range (Nat.lt_succ_of_le hi)]
  rfl

/-- There is no other entry that is collected. -/
theorem eq_of_accepts {entry i j : Nat} {shift : UInt16}
    (h : Accepts (tableWithShift entry shift) i j) : j = entry := by
  have hj := h.high
  have hlt := h.collected
  by_contra hne
  rw [getD_tableWithShift hj, if_neg hne, UInt16.lt_iff_toNat_lt,
    UInt16.toNat_ofNat_of_lt' (Nat.lt_of_le_of_lt (Nat.add_le_add_left hj _) (by decide))] at hlt
  exact absurd hlt (Nat.not_lt.mpr (Nat.le_trans (by decide) (Nat.le_add_right _ _)))

/-- A shift among the bytes serves the characters it is meant for. -/
theorem histogramEncodes_sample :
    HistogramEncodes (tableWithShift 0x80 2) [0x41, 0x1085, 0x1100] := by
  have hnear : (tableWithShift 0x80 2).findIdx? (· == 0x1085) = some 0x85 := by decide +kernel
  have hfar : (tableWithShift 0x80 2).findIdx? (· == 0x1100) = some 0x100 := by decide +kernel
  refine (histogramEncodes_iff (length_tableWithShift _ _) _).mpr ?_
  intro b hb hle i hi
  simp only [List.mem_cons, List.not_mem_nil, or_false] at hb
  obtain rfl | rfl | rfl := hb
  · exact absurd hle (by decide)
  · obtain rfl := Option.some.inj (hi.symm.trans hnear)
    exact ⟨by decide, fun h => absurd h (by decide)⟩
  · obtain rfl := Option.some.inj (hi.symm.trans hfar)
    refine ⟨by decide, ?_⟩
    intro _ j hj _
    obtain rfl := eq_of_accepts hj
    exact ⟨by decide, by decide +kernel, by decide +kernel⟩

/-- The entry at 0x1FE is collected by its low byte, and what is at 0xFE is no shift. -/
theorem shift_by_low_byte : ¬ HistogramEncodes (tableWithShift 0x1FE 2) [0x1100] := by
  rintro ⟨shifts, hshifts, hemitted, -⟩
  obtain rfl := Except.ok.inj ((histogramShifts_eq (length_tableWithShift _ _)).symm.trans hshifts)
  have hi : (tableWithShift 0x1FE 2).findIdx? (· == 0x1100) = some 0x100 := by decide +kernel
  have haccepts : Accepts (tableWithShift 0x1FE 2) 0x100 0x1FE :=
    ⟨by decide, by decide, by decide +kernel, by decide +kernel⟩
  have hfits := (emitted_iff (by decide) hi).mp (hemitted 0x1100 (by simp) (by decide) _ hi)
    (by decide) 0x1FE haccepts fun k hk => hk.high
  exact absurd hfits.table (by decide +kernel)

end Kyber.ModLoader
