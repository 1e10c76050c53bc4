import Kyber.Collection.ModCollection
import Kyber.Launcher.Modes
import Kyber.Lib.Gaps

/-!
# Lists that are reordered (`collection_editor_cubit.dart`, `map_rotation_cubit.dart`)

The mods of a collection and the maps of a rotation are moved by dragging. The list says
where the element was, and the gap to which it is moved. The editor changes the list of its
collection in place; the rotation is copied.
-/

namespace Kyber.Launcher

open Kyber.Collection (DartError ModCollectionMetaData)
open Kyber.Lib

section

variable {α : Type} (l : List α)

def removeAt (index : Int) : Except DartError (α × List α) :=
  match if 0 ≤ index then l[index.toNat]? else none with
  | some a => .ok (a, l.eraseIdx index.toNat)
  | none => .error .rangeError

def insertAll (index : Int) (items : List α) : Except DartError (List α) :=
  if 0 ≤ index ∧ index ≤ l.length then .ok (insertAt l index.toNat items)
  else .error .rangeError

/-- `insert` -/
def insertOne (index : Int) (item : α) : Except DartError (List α) := insertAll l index [item]

/-- A range of a list, and the list without it (`sublist` and `removeRange`). -/
def removeRange (first last : Int) : Except DartError (List α × List α) :=
  if 0 ≤ first ∧ first ≤ last ∧ last ≤ l.length then
    .ok ((l.drop first.toNat).take (last - first).toNat,
      l.take first.toNat ++ l.drop last.toNat)
  else .error .rangeError

end

structure CollectionEditorState where
  selectedCollection : Option ModCollectionMetaData
  editing : Bool

/-- `CollectionEditorCubit.moveMod` -/
def moveMod (oldIndex newIndex : Int) (state : CollectionEditorState) :
    Except DartError Unit × CollectionEditorState :=
  match state.selectedCollection with
  | none => (.ok (), state)
  | some collection =>
      if !state.editing then (.ok (), state)
      else
        let newIndex := if newIndex ≥ oldIndex then newIndex - 1 else newIndex
        match removeAt collection.mods oldIndex with
        | .error e => (.error e, state)
        | .ok (mod, mods) =>
            match insertOne mods newIndex mod with
            | .error e => (.error e, { state with selectedCollection := some { collection with mods } })
            | .ok mods =>
                (.ok (), { selectedCollection := some { collection with mods }, editing := true })

structure MapRotationState where
  maps : List MapRotationEntry

/-- `MapRotationCubit.moveMaps` -/
def moveMaps (oldStartIndex oldEndIndex newStartIndex _newEndIndex : Int)
    (state : MapRotationState) : Except DartError MapRotationState := do
  let (items, list) ← removeRange state.maps oldStartIndex (oldEndIndex + 1)
  if newStartIndex > list.length then return { maps := list ++ items }
  else return { maps := ← insertAll list newStartIndex items }

/-- `MapRotationCubit.moveMap` -/
def moveMap (oldIndex newIndex : Int) (state : MapRotationState) :
    Except DartError MapRotationState := do
  let newIndex := if newIndex > oldIndex then newIndex - 1 else newIndex
  let (item, items) ← removeAt state.maps oldIndex
  if newIndex > items.length then return { maps := items ++ [item] }
  else return { maps := ← insertOne items newIndex item }

end Kyber.Launcher
