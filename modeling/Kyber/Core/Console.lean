import Kyber.Core.Players
import Kyber.Lib.Shuffles

/-!
# Console commands for teams (`Console.cpp`)

The server's list of players is the list of its slots, of which each is empty or has a
player of its own; a pointer to a player is the number of the slot. What `SetTeam`
does in the engine is to set the player's team.

The loops count with an `int`, and compare it with an unsigned number, which converts
it. They have fuel for one round more than there are players. An access outside a
vector is undefined and ends a command in nothing.
-/

namespace Kyber.Core

open Kyber.Lib

abbrev PlayerSlots := List (Option ServerPlayer)

/-- `for (int i = lo; i < hi; i++)` -/
def forBelow {σ : Type} (hi : UInt32) (body : Nat → σ → Option σ) : Nat → Int32 → σ → Option σ
  | 0, _, _ => none
  | fuel + 1, i, s =>
      if i.toUInt32 < hi then (body i.toUInt32.toNat s).bind (forBelow hi body fuel (i + 1))
      else some s

/-- `l[i] = a` -/
def assignAt {α : Type} (a : α) (i : Nat) (l : List α) : Option (List α) :=
  if i < l.length then some (l.set i a) else none

def ServerPlayer.setTeam (p : ServerPlayer) (teamId : Int32) : ServerPlayer :=
  { p with teamId := teamId.toUInt32 }

/-- A player that is not run by the computer. -/
def isHuman : Option ServerPlayer → Bool
  | none => false
  | some p => !p.isAIPlayer

/-- The pointers to the real players. -/
def realPlayers (playerList : PlayerSlots) : List Nat :=
  (playerList.zipIdx.filter fun slot => isHuman slot.1).map Prod.snd

/-- `for (int i = n - 1; i >= 0; i--)` with the numbers that `rand()` returns from its
call `k` on. -/
def shuffleTeams (rand : Nat → Nat) : Nat → Nat → Int32 → List Int32 → Option (List Int32)
  | 0, _, _, _ => none
  | fuel + 1, k, i, teams =>
      if 0 ≤ i then
        let j := rand k % (i + 1).toUInt32.toNat
        (swapAt teams i.toUInt32.toNat j).bind (shuffleTeams rand fuel (k + 1) (i - 1))
      else some teams

/-- `players[i]->SetTeam(randomTeamList[i])` -/
def setTeamAt (players : List Nat) (randomTeamList : List Int32) (i : Nat)
    (playerList : PlayerSlots) : Option PlayerSlots := do
  let player ← players[i]?
  let team ← randomTeamList[i]?
  return playerList.modify player (Option.map (·.setTeam team))

def shuffleTeamsCommand (rand : Nat → Nat) (playerList : PlayerSlots) : Option PlayerSlots := do
  let players := realPlayers playerList
  let playerCount := UInt32.ofNat players.length
  let half := playerCount - playerCount / 2
  let fuel := players.length + 1
  let randomTeamList := List.replicate playerCount.toNat (0 : Int32)
  let randomTeamList ← forBelow half (assignAt 1) fuel 0 randomTeamList
  let randomTeamList ← forBelow playerCount (assignAt 2) fuel half.toInt32 randomTeamList
  let randomTeamList ← shuffleTeams rand fuel 0 (playerCount - 1).toInt32 randomTeamList
  forBelow playerCount (setTeamAt players randomTeamList) fuel 0 playerList

end Kyber.Core
