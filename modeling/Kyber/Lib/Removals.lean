import Mathlib.Data.List.Basic

/-!
# Removing in place

`remove_if` asks the predicate about each element once, from the first to the last, and moves
the elements that stay to the front as it goes; what is behind them is erased then. The
predicate may have effects, and may not return.

`eraseIf_eq_sift` says that the moves do not show: the elements that are still to be asked
about are behind those that have been moved. `sift_eq_of_test` splits a predicate whose answer
does not depend on its effects into the answer, which is a filter, and the effects, which are
those of the elements that are removed.

A loop over the positions of a list that takes elements out as it goes does not ask about the
element behind each of them, since that one has moved to the position it has just been at. What
it leaves is `passOver`, which is the filter only if no two neighbours are to be taken out.
-/

namespace Kyber.Lib

variable {α σ : Type} (pred : α → σ → Option (Bool × σ))

/-- The elements that stay, where the predicate is asked in the order of the list. -/
def sift : List α → σ → Option (List α × σ)
  | [], s => some ([], s)
  | a :: as, s =>
      (pred a s).bind fun answer =>
        (sift as answer.2).map fun r => (if answer.1 then r.1 else a :: r.1, r.2)

/-- `find_if`, for the `n` elements from `first` on. -/
def findIf (v : List α) : Nat → Nat → σ → Option (Nat × σ)
  | 0, first, s => some (first, s)
  | n + 1, first, s =>
      v[first]?.bind fun a =>
        (pred a s).bind fun answer =>
          if answer.1 then some (first, answer.2) else findIf v n (first + 1) answer.2

/-- `remove_copy_if`, for the `n` elements from `first` on, with the vector that it leaves. -/
def removeCopyIf : Nat → Nat → Nat → List α → σ → Option (Nat × List α × σ)
  | 0, _, result, v, s => some (result, v, s)
  | n + 1, first, result, v, s =>
      v[first]?.bind fun a =>
        (pred a s).bind fun answer =>
          if answer.1 then removeCopyIf n (first + 1) result v answer.2
          else removeCopyIf n (first + 1) (result + 1) (v.set result a) answer.2

/-- `remove_if`, from the element on that `find_if` has found. -/
def removeFrom (v : List α) (first : Nat) (s : σ) : Option (Nat × List α × σ) :=
  if first = v.length then some (first, v, s)
  else removeCopyIf pred (v.length - (first + 1)) (first + 1) first v s

/-- `v.erase(remove_if(v.begin(), v.end(), pred), v.end())` -/
def eraseIf (v : List α) (s : σ) : Option (List α × σ) :=
  (findIf pred v v.length 0 s).bind fun found =>
    (removeFrom pred v found.1 found.2).map fun r => (r.2.1.take r.1, r.2.2)

variable {pred}

theorem drop_succ_of_drop {v rest : List α} {a : α} {i : Nat} (h : v.drop i = a :: rest) :
    v[i]? = some a ∧ v.drop (i + 1) = rest := by
  refine ⟨?_, ?_⟩
  · rw [← Nat.add_zero i, ← List.getElem?_drop, h]
    rfl
  · rw [← List.drop_drop, h]
    rfl

theorem removeCopyIf_eq {first result : Nat} {v rest : List α} (hrest : v.drop first = rest)
    (hle : result ≤ first) (s : σ) :
    (removeCopyIf pred rest.length first result v s).map (fun r => (r.2.1.take r.1, r.2.2)) =
      (sift pred rest s).map fun r => (v.take result ++ r.1, r.2) := by
  induction rest generalizing first result v s with
  | nil =>
      show some (v.take result, s) = some (v.take result ++ [], s)
      rw [List.append_nil]
  | cons a rest ih =>
      obtain ⟨hget, htail⟩ := drop_succ_of_drop hrest
      have hlt : first < v.length := (List.getElem?_eq_some_iff.mp hget).1
      rw [List.length_cons, removeCopyIf, sift, hget, Option.bind_some]
      cases pred a s with
      | none => rfl
      | some answer =>
          rw [Option.bind_some, Option.bind_some, Option.map_map]
          cases hgone : answer.1 with
          | true =>
              rw [if_pos rfl]
              exact ih htail (by omega) answer.2
          | false =>
              have hset : (v.set result a).drop (first + 1) = rest := by
                rw [List.drop_set_of_lt (by omega), htail]
              have htake : (v.set result a).take (result + 1) = v.take result ++ [a] := by
                rw [List.take_add_one, List.take_set_of_le (Nat.le_refl result),
                  List.getElem?_set_self (by omega)]
                rfl
              rw [if_neg Bool.false_ne_true, ih hset (by omega) answer.2, htake]
              refine congrArg (fun f => Option.map f (sift pred rest answer.2))
                (funext fun r => ?_)
              show (v.take result ++ [a] ++ r.1, r.2) = (v.take result ++ (a :: r.1), r.2)
              rw [List.append_assoc]
              rfl

theorem findIf_eq {v rest : List α} {first : Nat} (hrest : v.drop first = rest)
    (hle : first ≤ v.length) (s : σ) :
    ((findIf pred v rest.length first s).bind fun found =>
        (removeFrom pred v found.1 found.2).map fun r => (r.2.1.take r.1, r.2.2)) =
      (sift pred rest s).map fun r => (v.take first ++ r.1, r.2) := by
  have hlength : rest.length = v.length - first := by rw [← hrest, List.length_drop]
  induction rest generalizing first s with
  | nil =>
      have hend : first = v.length := by
        rw [List.length_nil] at hlength
        omega
      show (removeFrom pred v first s).map _ = some (v.take first ++ [], s)
      rw [removeFrom, if_pos hend, List.append_nil]
      rfl
  | cons a rest ih =>
      obtain ⟨hget, htail⟩ := drop_succ_of_drop hrest
      have hlt : first < v.length := (List.getElem?_eq_some_iff.mp hget).1
      rw [List.length_cons] at hlength
      rw [List.length_cons, findIf, sift, hget, Option.bind_some]
      cases pred a s with
      | none => rfl
      | some answer =>
          rw [Option.bind_some, Option.bind_some, Option.map_map]
          cases hfound : answer.1 with
          | true =>
              have hrestLength : v.length - (first + 1) = rest.length := by omega
              rw [if_pos rfl, Option.bind_some, removeFrom, if_neg (by dsimp only; omega),
                hrestLength]
              exact removeCopyIf_eq htail (Nat.le_succ first) answer.2
          | false =>
              have htake : v.take (first + 1) = v.take first ++ [a] := by
                rw [List.take_add_one, hget]
                rfl
              rw [if_neg Bool.false_ne_true, ih htail hlt answer.2 (by omega), htake]
              refine congrArg (fun f => Option.map f (sift pred rest answer.2))
                (funext fun r => ?_)
              show (v.take first ++ [a] ++ r.1, r.2) = (v.take first ++ (a :: r.1), r.2)
              rw [List.append_assoc]
              rfl

theorem eraseIf_eq_sift (v : List α) (s : σ) : eraseIf pred v s = sift pred v s := by
  refine (findIf_eq (List.drop_zero) (Nat.zero_le _) s).trans ?_
  show (sift pred v s).map id = _
  rw [Option.map_id]
  rfl

/-- The answer is a test, and only what is removed has an effect. -/
theorem sift_eq_of_test {test : α → Bool} {run : σ → α → Option σ}
    (hpred : ∀ a s, pred a s =
      if test a then (run s a).map fun s => (true, s) else some (false, s))
    (v : List α) (s : σ) :
    sift pred v s =
      ((v.filter test).foldlM run s).map fun s => (v.filter fun a => !test a, s) := by
  induction v generalizing s with
  | nil => rfl
  | cons a v ih =>
      rw [sift, hpred, List.filter_cons, List.filter_cons]
      cases htest : test a with
      | true =>
          rw [if_pos rfl, if_pos rfl, if_neg (by decide), List.foldlM_cons]
          cases run s a with
          | none => rfl
          | some s' =>
              show (sift pred v s').map _ = ((v.filter test).foldlM run s').map _
              rw [ih, Option.map_map]
              rfl
      | false =>
          rw [if_neg Bool.false_ne_true, if_neg Bool.false_ne_true, if_pos (by decide)]
          show (sift pred v s).map _ = _
          rw [ih, Option.map_map]
          rfl

/-! ## Removing by position -/

/-- After each element that is taken out, one is passed over. -/
def passOver (p : α → Bool) : List α → List α
  | [] => []
  | [a] => if p a then [] else [a]
  | a :: b :: as => if p a then b :: passOver p as else a :: passOver p (b :: as)

theorem isChain_cons_of_false {p : α → Bool} {a : α} {as : List α} (h : p a = false) :
    (a :: as).IsChain (fun a b => ¬ (p a = true ∧ p b = true)) ↔
      as.IsChain fun a b => ¬ (p a = true ∧ p b = true) := by
  cases as with
  | nil => simp
  | cons b as => simp [h]

theorem passOver_eq_filter_iff (p : α → Bool) (as : List α) :
    passOver p as = as.filter (fun a => !p a) ↔
      as.IsChain fun a b => ¬ (p a = true ∧ p b = true) := by
  fun_induction passOver p as with
  | case1 => simp
  | case2 a h => simp [h]
  | case3 a h => simp [h]
  | case4 a b as h ih =>
      rw [List.filter_cons_of_neg (by simp [h]), List.isChain_cons_cons]
      cases hb : p b with
      | true =>
          refine ⟨fun heq => ?_, fun hchain => absurd ⟨h, rfl⟩ hchain.1⟩
          -- The element that was passed over is to be taken out.
          have hmem : b ∈ (b :: as).filter fun a => !p a := heq ▸ List.mem_cons_self
          rw [List.mem_filter, hb] at hmem
          exact absurd hmem.2 (by decide)
      | false =>
          rw [List.filter_cons_of_pos (by simp [hb]), List.cons_inj_right, ih,
            isChain_cons_of_false hb]
          simp
  | case5 a b as h ih =>
      have ha : p a = false := Bool.eq_false_iff.mpr h
      rw [List.filter_cons_of_pos (by simp [ha]), List.cons_inj_right, ih,
        isChain_cons_of_false ha]

end Kyber.Lib
