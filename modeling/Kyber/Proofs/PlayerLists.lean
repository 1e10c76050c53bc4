import Kyber.Api.ServerManager
import Kyber.Lib.Removals

/-!
# What is taken out of a player list

A game server sends its players, and entries without a player or without an id are to be taken
out. The loop ranges over the list that it takes them out of. It passes over the entry behind
each, and when it comes to the end of what is left it goes on with leftovers: behind the end
there are copies of the last entry, as many as entries have been taken out. If that one is to
be taken out too, the loop panics.
-/

namespace Kyber.Api.ServerManager

open Kyber.Lib

/-! ## The loop -/

/-- Behind the end of the slice there are only copies of one entry. -/
theorem takeOut_behind {front : List (Option ServerPlayer)} (last : Option ServerPlayer)
    {k i n : Nat} (hi : front.length ≤ i) (hn : i + n = front.length + k) :
    takeOut (front ++ List.replicate k last) front.length i n =
      if dropped last = true ∧ 0 < n then .error .panic else .ok front := by
  induction n generalizing i with
  | zero =>
      rw [takeOut, if_neg (by omega), List.take_left]
  | succ n ih =>
      have hhere : (front ++ List.replicate k last)[i]? = some last := by
        rw [List.getElem?_append_right hi, List.getElem?_replicate, if_pos (by omega)]
      rw [takeOut, hhere, Option.getD_some]
      cases hdropped : dropped last with
      | true =>
          rw [if_pos rfl, if_pos (by omega), if_pos ⟨rfl, Nat.succ_pos n⟩]
      | false =>
          rw [if_neg (by decide), ih (by omega) (by omega)]
          simp [hdropped]

/-- An entry that stays. -/
theorem takeOut_keep {front rest behind : List (Option ServerPlayer)} {p : Option ServerPlayer}
    {len n : Nat} (h : dropped p = false) :
    takeOut (front ++ p :: rest ++ behind) len front.length (n + 1) =
      takeOut ((front ++ [p]) ++ rest ++ behind) len (front ++ [p]).length n := by
  have hhere : (front ++ p :: rest ++ behind)[front.length]? = some p := by simp
  rw [takeOut, hhere, Option.getD_some, h, if_neg (by decide), List.length_append,
    List.append_cons]
  rfl

/-- An entry that is taken out: the rest moves up, and the last entry stays behind it. -/
theorem takeOut_drop {front rest behind : List (Option ServerPlayer)} {p : Option ServerPlayer}
    {n : Nat} (h : dropped p = true) :
    takeOut (front ++ p :: rest ++ behind) (front.length + (p :: rest).length) front.length
        (n + 1) =
      takeOut (front ++ rest ++ ((p :: rest).getLast (List.cons_ne_nil p rest) :: behind))
        (front.length + rest.length) (front.length + 1) n := by
  have hhere : (front ++ p :: rest ++ behind)[front.length]? = some p := by simp
  have hslice : (front ++ p :: rest ++ behind).take (front.length + (p :: rest).length) =
      front ++ p :: rest := by
    rw [← List.length_append, List.take_left]
  have hlast : (front ++ p :: rest ++ behind).drop (front.length + (p :: rest).length - 1) =
      (p :: rest).getLast (List.cons_ne_nil p rest) :: behind := by
    have hsplit := List.dropLast_append_getLast (List.cons_ne_nil p rest)
    have harray : front ++ p :: rest ++ behind = (front ++ (p :: rest).dropLast) ++
        ((p :: rest).getLast (List.cons_ne_nil p rest) :: behind) := by
      rw [List.append_assoc, List.append_assoc]
      exact congrArg (front ++ ·)
        ((congrArg (· ++ behind) hsplit.symm).trans (List.append_assoc _ _ _))
    have hlength : front.length + (p :: rest).length - 1 =
        (front ++ (p :: rest).dropLast).length := by
      rw [List.length_append, List.length_dropLast, List.length_cons]
      omega
    rw [hlength, harray, List.drop_left]
  rw [takeOut, hhere, Option.getD_some, if_pos h, if_neg (by rw [List.length_cons]; omega), hslice,
    hlast]
  simp

/-- In the slice: `front` is done with, `rest` is not, and `k` entries have been taken out. -/
theorem takeOut_eq {last : Option ServerPlayer} (rest front : List (Option ServerPlayer)) (k : Nat)
    (hlast : ∀ p, rest.getLast? = some p → p = last) :
    takeOut (front ++ rest ++ List.replicate k last) (front.length + rest.length) front.length
        (rest.length + k) =
      if dropped last = true ∧ (0 < k ∨ ∃ p ∈ rest.dropLast, dropped p = true) then .error .panic
      else .ok (front ++ passOver dropped rest) := by
  fun_induction passOver dropped rest generalizing front k with
  | case1 =>
      rw [List.append_nil, List.length_nil, Nat.add_zero, Nat.zero_add,
        takeOut_behind _ (Nat.le_refl _) rfl]
      simp
  | case2 a h =>
      obtain rfl : a = last := hlast a rfl
      have hcopies : front.length + 1 + k = front.length + (k + 1) := by omega
      have hrun := takeOut_behind a (Nat.le_succ front.length) hcopies
      rw [List.length_singleton, Nat.add_comm 1 k]
      refine (takeOut_drop h).trans ?_
      rw [List.append_nil, List.length_nil, Nat.add_zero]
      refine hrun.trans ?_
      simp
  | case3 a h =>
      obtain rfl : a = last := hlast a rfl
      have ha : dropped a = false := Bool.eq_false_iff.mpr h
      rw [List.length_singleton, Nat.add_comm 1 k, takeOut_keep ha, List.append_nil,
        ← List.length_singleton (a := a), ← List.length_append, takeOut_behind _ (Nat.le_refl _) rfl]
      simp [ha]
  | case4 a b as h ih =>
      have hbehind : (a :: b :: as).getLast (List.cons_ne_nil a _) = last :=
        hlast _ (List.getLast?_eq_some_getLast _)
      have hnext := ih (front ++ [b]) (k + 1) fun p hp => hlast p (by
        cases as with
        | nil => cases hp
        | cons c cs => simpa using hp)
      rw [show (a :: b :: as).length + k = (as.length + (k + 1)) + 1 by simp; omega,
        takeOut_drop h, hbehind]
      refine Eq.trans ?_ (hnext.trans ?_)
      · have hlen : front.length + (b :: as).length = (front ++ [b]).length + as.length := by
          simp
          omega
        rw [hlen, List.append_cons front b as, List.length_append, List.replicate_succ]
        rfl
      · -- The entry that was taken out is one, whether the last one is to be taken out or not.
        have hcond : (dropped last = true ∧ (0 < k + 1 ∨ ∃ p ∈ as.dropLast, dropped p = true)) ↔
            (dropped last = true ∧ (0 < k ∨ ∃ p ∈ (a :: b :: as).dropLast, dropped p = true)) :=
          and_congr_right fun _ =>
            ⟨fun _ => .inr ⟨a, List.mem_cons_self, h⟩, fun _ => .inl (Nat.succ_pos k)⟩
        rw [if_congr hcond rfl rfl, List.append_cons front b (passOver dropped as)]
  | case5 a b as h ih =>
      have ha : dropped a = false := Bool.eq_false_iff.mpr h
      have hnext := ih (front ++ [a]) k fun p hp => hlast p (by simpa using hp)
      rw [show (a :: b :: as).length + k = ((b :: as).length + k) + 1 by simp; omega,
        takeOut_keep ha]
      refine Eq.trans ?_ (hnext.trans ?_)
      · have hlen : front.length + (a :: b :: as).length =
            (front ++ [a]).length + (b :: as).length := by
          simp
          omega
        rw [hlen]
      · have hcond : (∃ p ∈ (b :: as).dropLast, dropped p = true) ↔
            ∃ p ∈ (a :: b :: as).dropLast, dropped p = true := by
          rw [List.dropLast_cons_cons]
          simp [ha]
        rw [if_congr (and_congr_right fun _ => or_congr_right hcond) rfl rfl,
          List.append_cons front a (passOver dropped (b :: as))]

/-- The last entry is to be taken out, and another one is too. -/
def Revisited (players : List (Option ServerPlayer)) : Prop :=
  (∃ last, players.getLast? = some last ∧ dropped last = true) ∧
    ∃ p ∈ players.dropLast, dropped p = true

instance (players : List (Option ServerPlayer)) : Decidable (Revisited players) :=
  inferInstanceAs (Decidable (_ ∧ _))

theorem sanitizePlayers_eq (players : List (Option ServerPlayer)) :
    sanitizePlayers players =
      if Revisited players then .error .panic else .ok (passOver dropped players) := by
  cases hlast : players.getLast? with
  | none =>
      obtain rfl := List.getLast?_eq_none_iff.mp hlast
      rfl
  | some last =>
      have hrun := takeOut_eq players [] 0 fun p hp => Option.some.inj (hp.symm.trans hlast)
      have hcond : (dropped last = true ∧
          (0 < 0 ∨ ∃ p ∈ players.dropLast, dropped p = true)) ↔ Revisited players := by
        simp [Revisited, hlast]
      rw [List.replicate_zero, List.append_nil, List.nil_append, List.length_nil, Nat.zero_add,
        Nat.add_zero, List.nil_append, if_congr hcond rfl rfl] at hrun
      exact hrun

/-! ## What is stored and published -/

/-- The entries that are to stay. -/
def kept (players : List (Option ServerPlayer)) : List (Option ServerPlayer) :=
  players.filter fun p => !dropped p

/-- What is published for a list. -/
def published (id : String) (players : List (Option ServerPlayer)) : List Output :=
  let zero : ServerPlayer := { id := "", name := "", teamId := 0 }
  let status := newStatusPlayerList (some (players.map fun p => playerModel (p.getD zero)))
  publishWS { serverID := id, status := some status } id

/-- The entries that are to stay are stored with the socket, and are published if the store
does not fail. -/
structure Sanitizes (m : ServerManager) (id : String) (stored : Bool)
    (players : List (Option ServerPlayer)) : Prop where
  list : sanitizePlayers players = .ok (kept players)
  event : m.processServerSocketEvent id stored (.players players) =
    .ok (m.setPlayers id (kept players), if stored then published id (kept players) else [])

theorem processServerSocketEvent_players {m : ServerManager} {id : String} {stored : Bool}
    {players kept : List (Option ServerPlayer)} (h : sanitizePlayers players = .ok kept) :
    m.processServerSocketEvent id stored (.players players) =
      .ok (m.setPlayers id kept, if stored then published id kept else []) := by
  rw [processServerSocketEvent, h]
  rfl

/-- No two neighbours are to be taken out, and the last entry only if it is the only one. -/
structure Separate (players : List (Option ServerPlayer)) : Prop where
  apart : players.IsChain fun p q => ¬ (dropped p = true ∧ dropped q = true)
  last : ∀ last, players.getLast? = some last → dropped last = true →
    ∀ p ∈ players.dropLast, dropped p = false

theorem not_revisited_iff (players : List (Option ServerPlayer)) :
    ¬ Revisited players ↔ ∀ last, players.getLast? = some last → dropped last = true →
      ∀ p ∈ players.dropLast, dropped p = false := by
  refine ⟨fun h last hlast hdropped p hp => ?_, fun h hrevisited => ?_⟩
  · refine Bool.eq_false_iff.mpr fun hp' => h ?_
    exact ⟨⟨last, hlast, hdropped⟩, p, hp, hp'⟩
  · obtain ⟨⟨last, hlast, hdropped⟩, p, hp, hp'⟩ := hrevisited
    exact Bool.eq_false_iff.mp (h last hlast hdropped p hp) hp'

/-- The players are stored and published as they should be exactly if the entries that are to
be taken out are apart, and the last one is not among several of them. -/
theorem sanitizes_iff (m : ServerManager) (id : String) (stored : Bool)
    (players : List (Option ServerPlayer)) :
    Sanitizes m id stored players ↔ Separate players := by
  have hlist : sanitizePlayers players = .ok (kept players) ↔ Separate players := by
    rw [sanitizePlayers_eq]
    by_cases hrevisited : Revisited players
    · rw [if_pos hrevisited]
      refine ⟨fun h => ?_, fun h => ?_⟩
      · cases h
      · exact absurd hrevisited ((not_revisited_iff players).mpr h.last)
    · rw [if_neg hrevisited, Except.ok.injEq, kept, passOver_eq_filter_iff]
      exact ⟨fun h => ⟨h, (not_revisited_iff players).mp hrevisited⟩, fun h => h.apart⟩
  rw [← hlist]
  exact ⟨fun h => h.list, fun h => ⟨h, processServerSocketEvent_players h⟩⟩

def alice : ServerPlayer where
  id := "a"
  name := "Alice"
  teamId := 1

/-- A player who is not known. -/
def zero : ServerPlayer where
  id := "0"
  name := ""
  teamId := 0

/-- Of two such players in front of her, the second one stays. -/
theorem not_sanitizes_zeros :
    ¬ Sanitizes (ownServer {} "s" 0).1 "s" true [some zero, some zero, some alice] := by
  intro h
  have hlist : sanitizePlayers [some zero, some zero, some alice] = .ok [some zero, some alice] := by
    rfl
  exact absurd (Except.ok.inj (hlist.symm.trans h.list)) (by decide)

/-- With one of them behind her the loop panics. -/
example : sanitizePlayers [some zero, some alice, some zero] = .error .panic := by rfl

end Kyber.Api.ServerManager
