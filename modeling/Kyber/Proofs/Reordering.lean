import Mathlib.Data.List.Perm.Basic
import Kyber.Launcher.Reordering

/-!
# Where a dragged element goes

An element should come to stand in the gap where it is dropped. The two editors take into
account that the gap moves when the element in front of it is removed; but the editor of
collections does so too if the gap is the one right in front of the element. The mod then
changes places with the one in front of it, and the first mod of all is removed and not put
back.
-/

namespace Kyber.Launcher

open Kyber.Collection (DartError ModCollectionMetaData)
open Kyber.Lib

/-- The collection is being edited. -/
def editing (collection : ModCollectionMetaData) : CollectionEditorState :=
  { selectedCollection := some collection, editing := true }

/-- An element that is dragged goes to the gap, and a block stays in one piece, with the others
in their order. -/
structure GapSemantics (collection : ModCollectionMetaData) (rotation : MapRotationState)
    (old gap : Nat) : Prop where
  mods : old < collection.mods.length → gap ≤ collection.mods.length →
    moveMod old gap (editing collection) =
      (.ok (), editing { collection with mods := moveToGap collection.mods old gap })
  maps : old < rotation.maps.length → gap ≤ rotation.maps.length →
    moveMap old gap rotation = .ok { maps := moveToGap rotation.maps old gap }
  blocks : ∀ (first last target : Nat) (newEnd : Int), first ≤ last → last < rotation.maps.length →
    ∃ u v, moveMaps first last target newEnd rotation =
        .ok { maps := u ++ (rotation.maps.drop first).take (last + 1 - first) ++ v } ∧
      u ++ v = rotation.maps.take first ++ rotation.maps.drop (last + 1) ∧
      (u ++ (rotation.maps.drop first).take (last + 1 - first) ++ v).Perm rotation.maps

section

variable {α : Type} {l : List α} {old : Nat}

theorem removeAt_eq (h : old < l.length) : removeAt l old = .ok (l[old], l.eraseIdx old) := by
  simp [removeAt, h]

theorem insertOne_eq {i : Nat} (h : i ≤ l.length) (item : α) :
    insertOne l i item = .ok (insertAt l i [item]) := by
  have hle : (i : Int) ≤ l.length := by omega
  rw [insertOne, insertAll, if_pos ⟨by omega, hle⟩]
  rfl

theorem insertOne_neg {i : Int} (h : i < 0) (item : α) :
    insertOne l i item = .error .rangeError := by
  rw [insertOne, insertAll, if_neg (by omega)]

theorem length_eraseIdx_add_one (h : old < l.length) : (l.eraseIdx old).length + 1 = l.length := by
  rw [List.length_eraseIdx_of_lt h]
  omega

end

/-! ## Mods -/

section

variable {collection : ModCollectionMetaData} {old gap : Nat}

theorem moveMod_of_insert {newIndex : Int} {mods : List Collection.CollectionMod}
    (hold : old < collection.mods.length)
    (hnew : (if (gap : Int) ≥ old then (gap : Int) - 1 else gap) = newIndex)
    (hinsert : insertOne (collection.mods.eraseIdx old) newIndex collection.mods[old] = .ok mods) :
    moveMod old gap (editing collection) = (.ok (), editing { collection with mods }) := by
  simp only [moveMod, editing, removeAt_eq hold, hnew, hinsert]
  rfl

theorem moveMod_of_lt (hold : old < collection.mods.length) (hgap : gap < old) :
    moveMod old gap (editing collection) =
      (.ok (), editing { collection with mods := moveToGap collection.mods old gap }) := by
  have hlength := length_eraseIdx_add_one hold
  refine moveMod_of_insert hold (if_neg (by omega)) ?_
  rw [insertOne_eq (by omega), insertAt_eraseIdx_of_le hold (by omega)]

theorem moveMod_of_gt (hold : old < collection.mods.length) (hgap : old < gap)
    (hlast : gap ≤ collection.mods.length) :
    moveMod old gap (editing collection) =
      (.ok (), editing { collection with mods := moveToGap collection.mods old gap }) := by
  have hlength := length_eraseIdx_add_one hold
  have hpred : (gap : Int) - 1 = ((gap - 1 : Nat) : Int) := by omega
  refine moveMod_of_insert hold ((if_pos (by omega)).trans hpred) ?_
  rw [insertOne_eq (by omega), insertAt_eraseIdx_of_lt hold hgap]

/-- The first mod is removed, and the place in front of it does not exist. -/
theorem moveMod_zero (hold : 0 < collection.mods.length) :
    moveMod 0 0 (editing collection) =
      (.error .rangeError, editing { collection with mods := collection.mods.eraseIdx 0 }) := by
  have hremove : removeAt collection.mods 0 = .ok (collection.mods[0], collection.mods.eraseIdx 0) :=
    removeAt_eq hold
  have hinsert := insertOne_neg (l := collection.mods.eraseIdx 0) (i := -1) (by omega)
    collection.mods[0]
  have hnew : (if (0 : Int) ≥ 0 then (0 : Int) - 1 else 0) = -1 := rfl
  simp only [moveMod, editing, hremove, hnew, hinsert]
  rfl

theorem moveMod_succ {i : Nat} (hold : i + 1 < collection.mods.length) :
    moveMod (i + 1 : Nat) (i + 1 : Nat) (editing collection) =
      (.ok (), editing { collection with
        mods := insertAt (collection.mods.eraseIdx (i + 1)) i [collection.mods[i + 1]] }) := by
  have hlength := length_eraseIdx_add_one hold
  have hpred : ((i + 1 : Nat) : Int) - 1 = (i : Int) := by omega
  refine moveMod_of_insert hold ((if_pos (by omega)).trans hpred) ?_
  rw [insertOne_eq (by omega)]

/-- Dropped where it is, a mod stays there only if the one in front of it is the same. -/
theorem moveMod_self_iff (hold : old < collection.mods.length) :
    moveMod old old (editing collection) =
        (.ok (), editing { collection with mods := moveToGap collection.mods old old }) ↔
      ∃ i, old = i + 1 ∧ collection.mods[i]? = collection.mods[i + 1]? := by
  rw [(moveToGap_self hold).1]
  cases old with
  | zero =>
      refine iff_of_false (fun h => ?_) fun h => ?_
      · have herror := (moveMod_zero hold).symm.trans h
        cases (Prod.mk.inj herror).1
      · obtain ⟨i, hi, -⟩ := h
        omega
  | succ i =>
      rw [moveMod_succ hold]
      have hiff := insertAt_eraseIdx_pred_eq_iff hold
      constructor
      · intro h
        refine ⟨i, rfl, ?_⟩
        have hmods : insertAt (collection.mods.eraseIdx (i + 1)) i [collection.mods[i + 1]] =
            collection.mods := by
          have hstate := congrArg CollectionEditorState.selectedCollection (Prod.mk.inj h).2
          exact congrArg ModCollectionMetaData.mods (Option.some.inj hstate)
        rw [List.getElem?_eq_getElem (by omega), List.getElem?_eq_getElem hold, hiff.mp hmods]
      · intro h
        obtain ⟨j, hj, hsame⟩ := h
        obtain rfl := Nat.succ.inj hj
        rw [List.getElem?_eq_getElem (by omega), List.getElem?_eq_getElem hold] at hsame
        rw [hiff.mpr (Option.some.inj hsame)]

end

/-! ## Maps -/

section

variable {rotation : MapRotationState} {old gap : Nat}

theorem moveMap_of_index {index : Nat} (hold : old < rotation.maps.length)
    (hnew : (if (gap : Int) > old then (gap : Int) - 1 else gap) = index)
    (hindex : index ≤ (rotation.maps.eraseIdx old).length) :
    moveMap old gap rotation =
      .ok { maps := insertAt (rotation.maps.eraseIdx old) index [rotation.maps[old]] } := by
  have hnot : ¬ (index : Int) > (rotation.maps.eraseIdx old).length := by omega
  simp only [moveMap, removeAt_eq hold, hnew]
  change (if (index : Int) > (rotation.maps.eraseIdx old).length then _ else _) = _
  rw [if_neg hnot, insertOne_eq hindex]
  rfl

theorem moveMap_eq (hold : old < rotation.maps.length) (hgap : gap ≤ rotation.maps.length) :
    moveMap old gap rotation = .ok { maps := moveToGap rotation.maps old gap } := by
  have hlength := length_eraseIdx_add_one hold
  obtain hlt | hle := Nat.lt_or_ge old gap
  · have hnew : (if (gap : Int) > old then (gap : Int) - 1 else gap) = ((gap - 1 : Nat) : Int) :=
      (if_pos (by omega)).trans (by omega)
    rw [moveMap_of_index hold hnew (by omega), insertAt_eraseIdx_of_lt hold hlt]
  · have hnew : (if (gap : Int) > old then (gap : Int) - 1 else gap) = gap := if_neg (by omega)
    rw [moveMap_of_index hold hnew (by omega), insertAt_eraseIdx_of_le hold hle]

/-- The other maps keep their order. -/
theorem moveMap_others (hold : old < rotation.maps.length) (hgap : gap ≤ rotation.maps.length) :
    ∃ u v, moveMap old gap rotation = .ok { maps := u ++ rotation.maps[old] :: v } ∧
      u ++ v = rotation.maps.eraseIdx old := by
  obtain ⟨u, v, hmove, huv⟩ := moveToGap_others hold gap
  exact ⟨u, v, by rw [moveMap_eq hold hgap, hmove], huv⟩

theorem removeRange_eq {first last : Nat} (h : first ≤ last) (hlast : last < rotation.maps.length) :
    removeRange rotation.maps first (last + 1) =
      .ok ((rotation.maps.drop first).take (last + 1 - first),
        rotation.maps.take first ++ rotation.maps.drop (last + 1)) := by
  have hcount : (((last : Int) + 1) - (first : Int)).toNat = last + 1 - first := by omega
  rw [removeRange, if_pos (by omega), hcount]
  rfl

theorem moveMaps_eq {first last : Nat} (h : first ≤ last) (hlast : last < rotation.maps.length)
    (target : Nat) (newEnd : Int) :
    ∃ u v, moveMaps first last target newEnd rotation =
        .ok { maps := u ++ (rotation.maps.drop first).take (last + 1 - first) ++ v } ∧
      u ++ v = rotation.maps.take first ++ rotation.maps.drop (last + 1) := by
  let list := rotation.maps.take first ++ rotation.maps.drop (last + 1)
  by_cases htarget : (target : Int) > list.length
  · refine ⟨list, [], ?_, List.append_nil _⟩
    rw [moveMaps, removeRange_eq h hlast]
    change (if (target : Int) > list.length then _ else _) = _
    rw [if_pos htarget, List.append_nil]
    rfl
  · refine ⟨list.take target, list.drop target, ?_, List.take_append_drop _ _⟩
    rw [moveMaps, removeRange_eq h hlast]
    change (if (target : Int) > list.length then _ else _) = _
    have hindex : 0 ≤ (target : Int) ∧ (target : Int) ≤ list.length := by omega
    rw [if_neg htarget]
    change (insertAll list target _ >>= fun maps => pure ({ maps } : MapRotationState)) = _
    rw [insertAll, if_pos hindex]
    rfl

theorem perm_of_blocks {α : Type} {l u v : List α} {first last : Nat} (h : first ≤ last)
    (huv : u ++ v = l.take first ++ l.drop (last + 1)) :
    (u ++ (l.drop first).take (last + 1 - first) ++ v).Perm l := by
  have hrest : (l.drop first).drop (last + 1 - first) = l.drop (last + 1) := by
    rw [List.drop_drop]
    congr 1
    omega
  have hall : l.take first ++ ((l.drop first).take (last + 1 - first) ++ l.drop (last + 1)) = l := by
    rw [← hrest, List.take_append_drop, List.take_append_drop]
  have hfront : (u ++ (l.drop first).take (last + 1 - first) ++ v).Perm
      ((l.drop first).take (last + 1 - first) ++ (u ++ v)) := by
    rw [← List.append_assoc]
    exact List.perm_append_comm.append_right v
  have hback : ((l.drop first).take (last + 1 - first) ++ (l.take first ++ l.drop (last + 1))).Perm
      (l.take first ++ ((l.drop first).take (last + 1 - first) ++ l.drop (last + 1))) := by
    rw [← List.append_assoc, ← List.append_assoc]
    exact List.perm_append_comm.append_right _
  rw [huv] at hfront
  exact hfront.trans (hback.trans (List.Perm.of_eq hall))

end

/-- Dropping in a gap does what it should exactly unless a mod is dropped right in front of
itself. -/
theorem gapSemantics_iff (collection : ModCollectionMetaData) (rotation : MapRotationState)
    (old gap : Nat) :
    GapSemantics collection rotation old gap ↔
      (old < collection.mods.length → gap = old →
        ∃ i, old = i + 1 ∧ collection.mods[i]? = collection.mods[i + 1]?) := by
  constructor
  · intro h hold hself
    subst hself
    exact (moveMod_self_iff hold).mp (h.mods hold (by omega))
  · intro h
    refine ⟨fun hold hgap => ?_, moveMap_eq, fun first last target newEnd hle hlast => ?_⟩
    · obtain hlt | heq | hgt := Nat.lt_trichotomy gap old
      · exact moveMod_of_lt hold hlt
      · subst heq
        exact (moveMod_self_iff hold).mpr (h hold rfl)
      · exact moveMod_of_gt hold hgt hgap
    · obtain ⟨u, v, hmoves, huv⟩ := moveMaps_eq hle hlast target newEnd
      exact ⟨u, v, hmoves, huv, perm_of_blocks hle huv⟩

/-- Two mods. -/
def twoMods : ModCollectionMetaData where
  localId := []
  title := []
  mods := [{ name := [0x61], version := [], link := [] }, { name := [0x62], version := [], link := [] }]

/-- The first one is dropped where it is, and is lost; the second one changes places with it. -/
theorem moveMod_twoMods :
    ((moveMod 0 0 (editing twoMods)).1 = .error .rangeError ∧
      ((moveMod 0 0 (editing twoMods)).2.selectedCollection.map (·.mods)) =
        some [{ name := [0x62], version := [], link := [] }]) ∧
    ((moveMod 1 1 (editing twoMods)).1 = .ok () ∧
      ((moveMod 1 1 (editing twoMods)).2.selectedCollection.map (·.mods)) =
        some twoMods.mods.reverse ∧
      moveToGap twoMods.mods 1 1 = twoMods.mods) := by
  decide

end Kyber.Launcher
