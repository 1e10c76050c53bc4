import Kyber.Core.Console
import Mathlib.Data.List.Count

/-!
# What comes out of a shuffle of the teams

The command fills a vector with as many ones and twos as there are real players, one
more of the ones if their number is odd, shuffles it, and hands it out. The loops are
folds over the indices they run through (`forBelow_eq`, `shuffleTeams_eq`), so the
vector that is handed out is a permutation of the sorted one, and any permutation for
some numbers that `rand()` returns.

A list of slots is balanced exactly if it comes from such a permutation
(`balanced_iff`).
-/

namespace Kyber.Core

open Kyber.Lib

/-! ## The loops -/

theorem toNat_ofNat {n : Nat} (h : n < 2 ^ 31) : (UInt32.ofNat n).toNat = n :=
  UInt32.toNat_ofNat_of_lt' (Nat.lt_trans h (by decide))

theorem ofNat_succ (n : Nat) : Int32.ofNat n + 1 = Int32.ofNat (n + 1) := by
  exact (Int32.ofNat_add n 1).symm

theorem forBelow_eq {σ : Type} {body : Nat → σ → Option σ} {hi d : Nat} (hhi : hi < 2 ^ 31) :
    ∀ {lo fuel : Nat} (s : σ), lo + d = hi → d < fuel →
      forBelow (UInt32.ofNat hi) body fuel (Int32.ofNat lo) s =
        (List.range' lo d).foldlM (fun s i => body i s) s := by
  induction d with
  | zero =>
      intro lo fuel s hlo hfuel
      cases fuel with
      | zero => cases hfuel
      | succ fuel =>
          have hnot : ¬ (Int32.ofNat lo).toUInt32 < UInt32.ofNat hi := by
            rw [Int32.toUInt32_ofNat', UInt32.lt_iff_toNat_lt, toNat_ofNat hhi, toNat_ofNat (by omega)]
            omega
          rw [forBelow, if_neg hnot]
          rfl
  | succ d ih =>
      intro lo fuel s hlo hfuel
      cases fuel with
      | zero => cases hfuel
      | succ fuel =>
          have hlt : (Int32.ofNat lo).toUInt32 < UInt32.ofNat hi := by
            rw [Int32.toUInt32_ofNat', UInt32.lt_iff_toNat_lt, toNat_ofNat hhi, toNat_ofNat (by omega)]
            omega
          rw [forBelow, if_pos hlt, Int32.toUInt32_ofNat', toNat_ofNat (by omega), ofNat_succ,
            List.range'_succ, List.foldlM_cons]
          cases body lo s with
          | none => rfl
          | some s' => exact ih s' (by omega) (by omega)

/-- A loop that assigns one value to a stretch of a vector. -/
theorem foldlM_assignAt {α : Type} (a : α) (g : List α) (f t : List α) :
    (List.range' f.length g.length).foldlM (fun l i => assignAt a i l) (f ++ g ++ t) =
      some (f ++ List.replicate g.length a ++ t) := by
  induction g generalizing f with
  | nil => rfl
  | cons b g ih =>
      have hlt : f.length < (f ++ b :: g ++ t).length := by simp
      have hset : (f ++ b :: g ++ t).set f.length a = f ++ [a] ++ g ++ t := by simp
      have hnext := ih (f ++ [a])
      rw [List.length_append, List.length_singleton] at hnext
      rw [List.length_cons, List.range'_succ, List.foldlM_cons, assignAt, if_pos hlt, hset]
      refine hnext.trans ?_
      simp [List.replicate_succ]

theorem shuffleTeams_eq (rand : Nat → Nat) {n : Nat} (hn : n < 2 ^ 31) :
    ∀ {k fuel : Nat} (l : List Int32), n < fuel →
      shuffleTeams rand fuel k (Int32.ofNat n - 1) l =
        shuffle (fun i => rand (k + (n - 1 - i)) % (i + 1)) n l := by
  induction n with
  | zero =>
      intro k fuel l hfuel
      cases fuel with
      | zero => cases hfuel
      | succ fuel => rw [shuffleTeams, if_neg (by decide), shuffle]
  | succ n ih =>
      intro k fuel l hfuel
      cases fuel with
      | zero => cases hfuel
      | succ fuel =>
          have hi : Int32.ofNat (n + 1) - 1 = Int32.ofNat n := by
            rw [← ofNat_succ]
            exact Int32.add_sub_cancel _ _
          have hpos : 0 ≤ Int32.ofNat n := by
            rw [Int32.le_iff_toInt_le, Int32.toInt_ofNat_of_lt (by omega)]
            exact Int.natCast_nonneg n
          rw [shuffleTeams, hi, if_pos hpos, ofNat_succ, Int32.toUInt32_ofNat', Int32.toUInt32_ofNat',
            toNat_ofNat hn, toNat_ofNat (by omega), shuffle, Nat.add_sub_cancel, Nat.sub_self,
            Nat.add_zero]
          dsimp only [Nat.add_zero]
          refine congrArg _ (funext fun l' => ?_)
          rw [ih (by omega) l' (by omega)]
          refine shuffle_congr (fun i hin => ?_) l'
          rw [show k + 1 + (n - 1 - i) = k + (n - i) by omega]

/-! ## Players in their slots -/

/-- The list with the teams of the real players set, in their order. -/
def withTeams : PlayerSlots → List Int32 → PlayerSlots
  | [], _ => []
  | slot :: slots, teams =>
      if isHuman slot then
        slot.map (·.setTeam (teams.headD 0)) :: withTeams slots teams.tail
      else slot :: withTeams slots teams

theorem foldlM_setTeamAt {players : List Nat} {teams : List Int32}
    (hlen : players.length = teams.length) {k d : Nat} (hk : k + d = players.length) :
    ∀ slots : PlayerSlots,
      (List.range' k d).foldlM (fun slots i => setTeamAt players teams i slots) slots =
        some (((players.drop k).zip (teams.drop k)).foldl
          (fun slots x => slots.modify x.1 (Option.map (·.setTeam x.2))) slots) := by
  induction d generalizing k with
  | zero =>
      intro slots
      rw [List.drop_of_length_le (by omega)]
      rfl
  | succ d ih =>
      intro slots
      have hp : k < players.length := by omega
      have ht : k < teams.length := by omega
      rw [List.range'_succ, List.foldlM_cons, setTeamAt, List.getElem?_eq_getElem hp,
        List.getElem?_eq_getElem ht, List.drop_eq_getElem_cons hp, List.drop_eq_getElem_cons ht,
        List.zip_cons_cons, List.foldl_cons]
      exact ih (by omega) _

theorem modify_append_cons {α : Type} (f : α → α) (front : List α) (a : α) (l : List α) :
    (front ++ a :: l).modify front.length f = front ++ f a :: l := by
  rw [List.modify_eq_take_cons_drop (by simp)]
  simp

theorem foldl_setTeam (slots front : PlayerSlots) {teams : List Int32}
    (hteams : slots.countP isHuman = teams.length) :
    ((((slots.zipIdx front.length).filter fun slot => isHuman slot.1).map Prod.snd).zip teams).foldl
      (fun slots x => slots.modify x.1 (Option.map (·.setTeam x.2))) (front ++ slots) =
      front ++ withTeams slots teams := by
  induction slots generalizing front teams with
  | nil => rfl
  | cons slot slots ih =>
      rw [List.zipIdx_cons, List.filter_cons, withTeams]
      cases hslot : isHuman slot with
      | false =>
          rw [List.countP_cons_of_neg (by simp [hslot])] at hteams
          have hnext := ih (front ++ [slot]) hteams
          simpa [hslot] using hnext
      | true =>
          rw [List.countP_cons_of_pos hslot] at hteams
          cases teams with
          | nil => simp at hteams
          | cons team teams =>
              have hnext := ih (front ++ [slot.map (·.setTeam team)]) (by simpa using hteams)
              simpa [hslot, modify_append_cons] using hnext

/-! ## The command -/

/-- The teams before they are shuffled: the first half on team 1, with the odd player. -/
def sortedTeams (n : Nat) : List Int32 := List.replicate (n - n / 2) 1 ++ List.replicate (n / 2) 2

theorem length_sortedTeams (n : Nat) : (sortedTeams n).length = n := by
  simp only [sortedTeams, List.length_append, List.length_replicate]
  omega

theorem length_realPlayers (slots : PlayerSlots) :
    (realPlayers slots).length = slots.countP isHuman := by
  rw [realPlayers, List.length_map, ← List.countP_eq_length_filter]
  have hmap := List.countP_map (p := isHuman) (f := Prod.fst) (l := slots.zipIdx)
  rw [List.zipIdx_map_fst] at hmap
  exact hmap.symm

theorem half_eq {n : Nat} (h : n < 2 ^ 31) :
    UInt32.ofNat n - UInt32.ofNat n / 2 = UInt32.ofNat (n - n / 2) := by
  rw [UInt32.ofNat_sub (Nat.div_le_self n 2), UInt32.ofNat_div (Nat.lt_trans h (by decide))
    (by decide)]
  rfl

theorem fillTeams_eq {n : Nat} (hlt : n < 2 ^ 31) (team : Int32) :
    ((forBelow (UInt32.ofNat (n - n / 2)) (assignAt 1) (n + 1) (Int32.ofNat 0)
      (List.replicate n team)).bind
        (forBelow (UInt32.ofNat n) (assignAt 2) (n + 1) (Int32.ofNat (n - n / 2)))) =
      some (sortedTeams n) := by
  have hsplit : n - n / 2 + n / 2 = n := by omega
  have hfirst := foldlM_assignAt (1 : Int32) (List.replicate (n - n / 2) team) []
    (List.replicate (n / 2) team)
  have hsecond := foldlM_assignAt (2 : Int32) (List.replicate (n / 2) team)
    (List.replicate (n - n / 2) 1) []
  rw [List.nil_append, List.replicate_append_replicate, hsplit] at hfirst
  simp only [List.length_replicate, List.length_nil, List.nil_append, List.append_nil] at hfirst hsecond
  rw [forBelow_eq (by omega) _ (Nat.zero_add _) (by omega), hfirst, Option.bind_some,
    forBelow_eq hlt _ hsplit (by omega), hsecond, sortedTeams]

/-- The command hands out the teams as they come from the shuffle. -/
theorem shuffleTeamsCommand_eq {rand : Nat → Nat} {slots : PlayerSlots} {n : Nat}
    {teams : List Int32} (hn : slots.countP isHuman = n) (hlt : n < 2 ^ 31)
    (hlen : teams.length = n)
    (h : shuffle (fun i => rand (n - 1 - i) % (i + 1)) n (sortedTeams n) = some teams) :
    shuffleTeamsCommand rand slots = some (withTeams slots teams) := by
  have hplayers : (realPlayers slots).length = n := (length_realPlayers slots).trans hn
  have hfill := fillTeams_eq hlt 0
  obtain ⟨first, hfirst, hsecond⟩ := Option.bind_eq_some_iff.mp hfill
  have hshuffle := shuffleTeams_eq rand hlt (k := 0) (sortedTeams n) (Nat.lt_succ_self n)
  simp only [Nat.zero_add] at hshuffle
  rw [h] at hshuffle
  have hlast : (UInt32.ofNat n - 1).toInt32 = Int32.ofNat n - 1 := UInt32.toInt32_sub _ _
  have hassign : forBelow (UInt32.ofNat n) (setTeamAt (realPlayers slots) teams) (n + 1)
      (Int32.ofNat 0) slots = _ := forBelow_eq hlt slots (Nat.zero_add n) (Nat.lt_succ_self n)
  rw [foldlM_setTeamAt (hplayers.trans hlen.symm) (hplayers.symm ▸ Nat.zero_add n)] at hassign
  have hteams := foldl_setTeam slots [] (hn.trans hlen.symm)
  simp only [shuffleTeamsCommand, hplayers, toNat_ofNat hlt, half_eq hlt, hlast,
    UInt32.toInt32_ofNat', bind]
  refine Option.bind_eq_some_iff.mpr ⟨first, hfirst, ?_⟩
  refine Option.bind_eq_some_iff.mpr ⟨sortedTeams n, hsecond, ?_⟩
  exact Option.bind_eq_some_iff.mpr ⟨teams, hshuffle, hassign.trans (congrArg some hteams)⟩

/-! ## Balance -/

/-- What a shuffle may make of a slot: nothing unless a real player is in it, whose team
is then set. -/
def SlotChange : Option ServerPlayer → Option ServerPlayer → Prop
  | none, slot => slot = none
  | some p, slot =>
      if p.isAIPlayer then slot = some p
      else slot = some (p.setTeam 1) ∨ slot = some (p.setTeam 2)

/-- A real player on a team. -/
def onTeam (team : Int32) (slot : Option ServerPlayer) : Bool :=
  isHuman slot && slot.any (·.teamId == team.toUInt32)

/-- The real players are on the two teams, half of them on each, and an odd one is on
team 1. -/
structure Balanced (before after : PlayerSlots) : Prop where
  slots : List.Forall₂ SlotChange before after
  first : after.countP (onTeam 1) = (before.countP isHuman + 1) / 2
  second : after.countP (onTeam 2) = before.countP isHuman / 2

theorem withTeams_of_isHuman {slot : Option ServerPlayer} (h : isHuman slot = true)
    (slots : PlayerSlots) (team : Int32) (teams : List Int32) :
    withTeams (slot :: slots) (team :: teams) =
      slot.map (·.setTeam team) :: withTeams slots teams := by
  rw [withTeams, if_pos h]
  rfl

theorem withTeams_of_not_isHuman {slot : Option ServerPlayer} (h : isHuman slot = false)
    (slots : PlayerSlots) (teams : List Int32) :
    withTeams (slot :: slots) teams = slot :: withTeams slots teams := by
  rw [withTeams, if_neg (by simp [h])]

theorem slotChange_of_not_isHuman {slot : Option ServerPlayer} (h : isHuman slot = false)
    (slot' : Option ServerPlayer) : SlotChange slot slot' ↔ slot' = slot := by
  cases slot with
  | none => exact Iff.rfl
  | some p =>
      have hp : p.isAIPlayer = true := by simpa [isHuman] using h
      simp only [SlotChange, if_pos hp]

theorem slotChange_of_isHuman {slot : Option ServerPlayer} (h : isHuman slot = true)
    (slot' : Option ServerPlayer) :
    SlotChange slot slot' ↔ ∃ t : Int32, (t = 1 ∨ t = 2) ∧ slot' = slot.map (·.setTeam t) := by
  cases slot with
  | none => cases h
  | some p =>
      have hp : ¬ p.isAIPlayer = true := by simpa [isHuman] using h
      simp only [SlotChange, if_neg hp, Option.map_some]
      constructor
      · rintro (heq | heq)
        · exact ⟨1, .inl rfl, heq⟩
        · exact ⟨2, .inr rfl, heq⟩
      · rintro ⟨t, rfl | rfl, heq⟩
        · exact .inl heq
        · exact .inr heq

/-- The results are the lists in which the teams are set, one for each real player. -/
theorem forall₂_slotChange_iff {before after : PlayerSlots} :
    List.Forall₂ SlotChange before after ↔
      ∃ teams : List Int32, teams.length = before.countP isHuman ∧
        (∀ t ∈ teams, t = 1 ∨ t = 2) ∧ after = withTeams before teams := by
  constructor
  · intro h
    induction h with
    | nil => exact ⟨[], rfl, nofun, rfl⟩
    | @cons slot slot' before after hslot h ih =>
        obtain ⟨teams, hlen, hteams, rfl⟩ := ih
        cases hhuman : isHuman slot with
        | false =>
            rw [(slotChange_of_not_isHuman hhuman slot').mp hslot]
            refine ⟨teams, ?_, hteams, (withTeams_of_not_isHuman hhuman before teams).symm⟩
            rw [List.countP_cons_of_neg (by simp [hhuman]), hlen]
        | true =>
            obtain ⟨t, ht, rfl⟩ := (slotChange_of_isHuman hhuman slot').mp hslot
            refine ⟨t :: teams, ?_, List.forall_mem_cons.mpr ⟨ht, hteams⟩,
              (withTeams_of_isHuman hhuman before t teams).symm⟩
            rw [List.countP_cons_of_pos hhuman, List.length_cons, hlen]
  · rintro ⟨teams, hlen, hteams, rfl⟩
    induction before generalizing teams with
    | nil => exact .nil
    | cons slot before ih =>
        cases hhuman : isHuman slot with
        | false =>
            rw [List.countP_cons_of_neg (by simp [hhuman])] at hlen
            rw [withTeams_of_not_isHuman hhuman]
            exact .cons ((slotChange_of_not_isHuman hhuman slot).mpr rfl) (ih teams hlen hteams)
        | true =>
            rw [List.countP_cons_of_pos hhuman] at hlen
            cases teams with
            | nil => cases hlen
            | cons t teams =>
                obtain ⟨ht, hteams⟩ := List.forall_mem_cons.mp hteams
                rw [withTeams_of_isHuman hhuman]
                exact .cons ((slotChange_of_isHuman hhuman _).mpr ⟨t, ht, rfl⟩)
                  (ih teams (Nat.succ.inj hlen) hteams)

theorem onTeam_map_setTeam {slot : Option ServerPlayer} (h : isHuman slot = true) {t team : Int32}
    (ht : t = 1 ∨ t = 2) (hteam : team = 1 ∨ team = 2) :
    onTeam team (slot.map (·.setTeam t)) = (t == team) := by
  cases slot with
  | none => cases h
  | some p =>
      have hhuman : isHuman (some (p.setTeam t)) = true := h
      rw [Option.map_some, onTeam, hhuman]
      rcases ht with rfl | rfl <;> rcases hteam with rfl | rfl <;> rfl

theorem countP_withTeams {slots : PlayerSlots} {teams : List Int32}
    (hlen : teams.length = slots.countP isHuman) (hteams : ∀ t ∈ teams, t = 1 ∨ t = 2)
    {team : Int32} (hteam : team = 1 ∨ team = 2) :
    (withTeams slots teams).countP (onTeam team) = teams.count team := by
  induction slots generalizing teams with
  | nil =>
      rw [List.eq_nil_of_length_eq_zero hlen]
      rfl
  | cons slot slots ih =>
      cases hhuman : isHuman slot with
      | false =>
          rw [List.countP_cons_of_neg (by simp [hhuman])] at hlen
          have hnot : onTeam team slot = false := by simp [onTeam, hhuman]
          rw [withTeams_of_not_isHuman hhuman, List.countP_cons_of_neg (by simp [hnot]),
            ih hlen hteams]
      | true =>
          rw [List.countP_cons_of_pos hhuman] at hlen
          cases teams with
          | nil => cases hlen
          | cons t teams =>
              obtain ⟨ht, hteams⟩ := List.forall_mem_cons.mp hteams
              rw [withTeams_of_isHuman hhuman, List.countP_cons, List.count_cons,
                onTeam_map_setTeam hhuman ht hteam, ih (Nat.succ.inj hlen) hteams]

theorem perm_sortedTeams_iff {n : Nat} {teams : List Int32} :
    teams.Perm (sortedTeams n) ↔ (∀ t ∈ teams, t = 1 ∨ t = 2) ∧
      teams.count 1 = (n + 1) / 2 ∧ teams.count 2 = n / 2 := by
  have hfirst : (sortedTeams n).count 1 = (n + 1) / 2 := by
    rw [sortedTeams, List.count_append, List.count_replicate, List.count_replicate,
      if_pos (by decide), if_neg (by decide)]
    omega
  have hsecond : (sortedTeams n).count 2 = n / 2 := by
    rw [sortedTeams, List.count_append, List.count_replicate, List.count_replicate,
      if_neg (by decide), if_pos (by decide)]
    omega
  have hmem : ∀ t ∈ sortedTeams n, t = 1 ∨ t = 2 := by
    intro t ht
    rcases List.mem_append.mp ht with ht | ht
    · exact .inl (List.eq_of_mem_replicate ht)
    · exact .inr (List.eq_of_mem_replicate ht)
  constructor
  · intro h
    refine ⟨fun t ht => hmem t (h.mem_iff.mp ht), ?_, ?_⟩
    · rw [h.count_eq, hfirst]
    · rw [h.count_eq, hsecond]
  · rintro ⟨hteams, h1, h2⟩
    refine List.perm_iff_count.mpr fun t => ?_
    by_cases ht1 : t = 1
    · rw [ht1, h1, hfirst]
    · by_cases ht2 : t = 2
      · rw [ht2, h2, hsecond]
      · rw [List.count_eq_zero_of_not_mem fun ht => (hteams t ht).elim ht1 ht2,
          List.count_eq_zero_of_not_mem fun ht => (hmem t ht).elim ht1 ht2]

theorem balanced_iff {before after : PlayerSlots} :
    Balanced before after ↔
      ∃ teams : List Int32, teams.Perm (sortedTeams (before.countP isHuman)) ∧
        after = withTeams before teams := by
  constructor
  · rintro ⟨hslots, hfirst, hsecond⟩
    obtain ⟨teams, hlen, hteams, rfl⟩ := forall₂_slotChange_iff.mp hslots
    rw [countP_withTeams hlen hteams (.inl rfl)] at hfirst
    rw [countP_withTeams hlen hteams (.inr rfl)] at hsecond
    exact ⟨teams, perm_sortedTeams_iff.mpr ⟨hteams, hfirst, hsecond⟩, rfl⟩
  · rintro ⟨teams, hperm, rfl⟩
    have hlen := hperm.length_eq.trans (length_sortedTeams _)
    obtain ⟨hteams, hfirst, hsecond⟩ := perm_sortedTeams_iff.mp hperm
    refine ⟨forall₂_slotChange_iff.mpr ⟨teams, hlen, hteams, rfl⟩, ?_, ?_⟩
    · rw [countP_withTeams hlen hteams (.inl rfl), hfirst]
    · rw [countP_withTeams hlen hteams (.inr rfl), hsecond]

/-- Whatever `rand()` returns, the command balances the teams, and it balances them in
every way there is, if `rand()` returns numbers up to the count of real players. -/
theorem shuffleTeamsCommand_balanced (randMax : Nat) (hint : randMax < 2 ^ 31)
    (before : PlayerSlots) (hcount : before.countP isHuman ≤ randMax) :
    (∀ rand, ∃ after, shuffleTeamsCommand rand before = some after ∧ Balanced before after) ∧
      ∀ after, Balanced before after →
        ∃ rand, (∀ k, rand k ≤ randMax) ∧ shuffleTeamsCommand rand before = some after := by
  generalize hn : before.countP isHuman = n at hcount
  have hlt := Nat.lt_of_le_of_lt hcount hint
  have hlen := length_sortedTeams n
  constructor
  · intro rand
    have hdraw : ∀ i, (fun i => rand (n - 1 - i) % (i + 1)) i ≤ i :=
      fun i => Nat.le_of_lt_succ (Nat.mod_lt _ (Nat.succ_pos i))
    obtain ⟨teams, hshuffle, hperm⟩ := shuffle_perm hdraw (Nat.le_of_eq hlen.symm)
    refine ⟨_, shuffleTeamsCommand_eq hn hlt (hperm.length_eq.trans hlen) hshuffle, ?_⟩
    exact balanced_iff.mpr ⟨teams, hn.symm ▸ hperm, rfl⟩
  · intro after hafter
    obtain ⟨teams, hperm, rfl⟩ := balanced_iff.mp hafter
    rw [hn] at hperm
    obtain ⟨draw, hdraw, hshuffle⟩ := exists_shuffle_eq hperm.symm
    rw [hlen] at hshuffle
    -- The call for position `i` is the one before which all later positions have had theirs.
    refine ⟨fun k => if k < n then draw (n - 1 - k) else 0, fun k => ?_, ?_⟩
    · have hle := hdraw (n - 1 - k)
      dsimp only
      split <;> omega
    · refine shuffleTeamsCommand_eq hn hlt (hperm.length_eq.trans hlen) ?_
      rw [← hshuffle]
      refine shuffle_congr (fun i hi => ?_) _
      rw [if_pos (by omega), show n - 1 - (n - 1 - i) = i by omega,
        Nat.mod_eq_of_lt (Nat.lt_succ_of_le (hdraw i))]

/-- Two players and an empty slot, with the smallest range that `rand()` may have. -/
def twoPlayers : PlayerSlots :=
  [some ⟨0, "", 0, 1, 0⟩, none, some ⟨1, "", 1, 2, 0⟩]

theorem twoPlayers_balanced :
    (∀ rand, ∃ after, shuffleTeamsCommand rand twoPlayers = some after ∧
      Balanced twoPlayers after) ∧
      ∀ after, Balanced twoPlayers after →
        ∃ rand, (∀ k, rand k ≤ 32767) ∧ shuffleTeamsCommand rand twoPlayers = some after :=
  shuffleTeamsCommand_balanced 32767 (by decide) twoPlayers (by decide)

end Kyber.Core
