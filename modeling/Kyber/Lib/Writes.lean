import Mathlib.Data.List.Basic
import Mathlib.Data.List.Forall2
import Mathlib.Logic.Function.Basic

/-!
# Who wins

A loop over a list of suppliers writes what each of them has into a table. Two rules are
common. Either a write goes ahead only where nothing has been written, and the first
supplier of a key wins; or it goes ahead always, and the last one does. The table is
whatever answers keys: `view s k` is what the state `s` has for the key `k`, and
`writes a k` is what the supplier `a` has for it.

The loop may fail. Whether it does is decided by the suppliers one by one, as long as
what an iteration can meet does not depend on the ones before it.

Where suppliers add to a list instead, and some of them clear it first, what is there in the
end comes from the last of these and those behind it (`gathered_append_cons`). Where a loop is over
the keys, and changes what is there for each, `onKeys` is the table after it.
-/

namespace Kyber.Lib

variable {σ α κ β ε : Type} (view : σ → κ → Option β) (writes : α → κ → Option β)

/-- The first one to write a key wins. -/
theorem foldl_first_write {step : σ → α → σ} {k : κ}
    (hstep : ∀ s a, view (step s a) k = (view s k).or (writes a k)) (as : List α) (s : σ) :
    view (as.foldl step s) k = (view s k).or (as.findSome? (writes · k)) := by
  induction as generalizing s with
  | nil => rw [List.foldl_nil, List.findSome?_nil, Option.or_none]
  | cons a as ih =>
      rw [List.foldl_cons, ih, hstep, Option.or_assoc, List.findSome?_cons]
      cases writes a k <;> rfl

/-- Behind the other suppliers of a list, one more comes last. -/
theorem findSome?_reverse_cons {f : α → Option β} (a : α) (as : List α) :
    (a :: as).reverse.findSome? f = (as.reverse.findSome? f).or (f a) := by
  rw [List.reverse_cons, List.findSome?_append, List.findSome?_singleton]

/-- The last supplier comes first. -/
theorem findSome?_reverse_append {f : α → Option β} (as : List α) (a : α) :
    (as ++ [a]).reverse.findSome? f = (f a).or (as.reverse.findSome? f) := by
  rw [List.reverse_append, List.reverse_singleton, List.singleton_append, List.findSome?_cons]
  cases f a <;> rfl

theorem findSome?_congr {f g : α → Option β} {as : List α} (h : ∀ a ∈ as, f a = g a) :
    as.findSome? f = as.findSome? g := by
  induction as with
  | nil => rfl
  | cons a as ih =>
      rw [List.findSome?_cons, List.findSome?_cons, h a List.mem_cons_self,
        ih fun b hb => h b (List.mem_cons_of_mem _ hb)]

/-- The last one to write a key wins. -/
theorem foldl_last_write {step : σ → α → σ} {k : κ}
    (hstep : ∀ s a, view (step s a) k = (writes a k).or (view s k)) (as : List α) (s : σ) :
    view (as.foldl step s) k = (as.reverse.findSome? (writes · k)).or (view s k) := by
  induction as generalizing s with
  | nil => rfl
  | cons a as ih => rw [List.foldl_cons, ih, hstep, findSome?_reverse_cons, Option.or_assoc]

section

variable {step : σ → α → Except ε σ} (Inv : σ → Prop) {P : α → Prop} {as : List α} {s : σ}

/-- The loop ends exactly if every supplier can be read. -/
theorem foldlM_ok_iff (hok : ∀ s, Inv s → ∀ a ∈ as, (∃ s', step s a = .ok s') ↔ P a)
    (hinv : ∀ s a s', Inv s → a ∈ as → step s a = .ok s' → Inv s') (hs : Inv s) :
    (∃ s', as.foldlM step s = .ok s') ↔ ∀ a ∈ as, P a := by
  induction as generalizing s with
  | nil =>
      refine ⟨fun _ => ?_, fun _ => ⟨s, rfl⟩⟩
      intro a ha
      cases ha
  | cons a as ih =>
      rw [List.forall_mem_cons, ← hok s hs a List.mem_cons_self]
      cases hstep : step s a with
      | error e =>
          constructor
          · rintro ⟨s', h⟩
            rw [List.foldlM_cons, hstep] at h
            cases h
          · rintro ⟨⟨s', h⟩, -⟩
            cases h
      | ok s₁ =>
          have hrest := ih (fun s hs b hb => hok s hs b (List.mem_cons_of_mem a hb))
            (fun s b s' hs hb => hinv s b s' hs (List.mem_cons_of_mem a hb))
            (hinv s a s₁ hs List.mem_cons_self hstep)
          rw [List.foldlM_cons, hstep, ← hrest]
          exact ⟨fun h => ⟨⟨s₁, rfl⟩, h⟩, fun h => h.2⟩

/-- Where it does, the last one to write a key has won. -/
theorem foldlM_last_write {k : κ}
    (hstep : ∀ s a s', Inv s → a ∈ as → step s a = .ok s' →
      Inv s' ∧ view s' k = (writes a k).or (view s k))
    (hs : Inv s) {s' : σ} (h : as.foldlM step s = .ok s') :
    view s' k = (as.reverse.findSome? (writes · k)).or (view s k) := by
  induction as generalizing s with
  | nil =>
      cases h
      rfl
  | cons a as ih =>
      rw [List.foldlM_cons] at h
      cases hfirst : step s a with
      | error e =>
          rw [hfirst] at h
          cases h
      | ok s₁ =>
          rw [hfirst] at h
          obtain ⟨hinv, hview⟩ := hstep s a s₁ hs List.mem_cons_self hfirst
          have hrest := ih (fun s b s' hs hb => hstep s b s' hs (List.mem_cons_of_mem a hb)) hinv h
          rw [hrest, hview, findSome?_reverse_cons, Option.or_assoc]

end

/-- A loop that has one result for each supplier ends with them exactly if all are there. -/
theorem mapM_ok_iff {f : α → Except ε β} {as : List α} {bs : List β} :
    as.mapM f = .ok bs ↔ List.Forall₂ (fun a b => f a = .ok b) as bs := by
  induction as generalizing bs with
  | nil =>
      rw [List.mapM_nil, List.forall₂_nil_left_iff]
      exact ⟨fun h => (Except.ok.inj h).symm, fun h => h ▸ rfl⟩
  | cons a as ih =>
      rw [List.mapM_cons, List.forall₂_cons_left_iff]
      cases hb : f a with
      | error e =>
          refine ⟨fun h => ?_, fun ⟨b, _, hfirst, _⟩ => ?_⟩
          · cases h
          · cases hfirst
      | ok b =>
          cases hbs : as.mapM f with
          | error e =>
              refine ⟨fun h => ?_, fun ⟨_, bs', _, hrest, _⟩ => ?_⟩
              · cases h
              · cases (ih.mpr hrest).symm.trans hbs
          | ok bs' =>
              refine ⟨fun h => ⟨b, bs', rfl, ih.mp hbs, (Except.ok.inj h).symm⟩, fun h => ?_⟩
              obtain ⟨b', bs'', hfirst, hrest, rfl⟩ := h
              cases hfirst
              cases (ih.mpr hrest).symm.trans hbs
              rfl

theorem exists_mapM {f : α → Except ε β} {as : List α} (h : ∀ a ∈ as, ∃ b, f a = .ok b) :
    ∃ bs, as.mapM f = .ok bs := by
  induction as with
  | nil => exact ⟨[], rfl⟩
  | cons a as ih =>
      obtain ⟨b, hb⟩ := h a List.mem_cons_self
      obtain ⟨bs, hbs⟩ := ih fun x hx => h x (List.mem_cons_of_mem _ hx)
      exact ⟨b :: bs, mapM_ok_iff.mpr (.cons hb (mapM_ok_iff.mp hbs))⟩

theorem mem_mapM_iff {f : α → Except ε β} {as : List α} {bs : List β} {b : β}
    (h : as.mapM f = .ok bs) : b ∈ bs ↔ ∃ a ∈ as, f a = .ok b := by
  have hresults : bs.map Except.ok = as.map f := by
    have hall := mapM_ok_iff.mp h
    clear h
    induction hall with
    | nil => rfl
    | cons hb _ ih => rw [List.map_cons, List.map_cons, hb, ih]
  have hok : (Except.ok b : Except ε β) ∈ bs.map Except.ok ↔ b ∈ bs :=
    List.mem_map_of_injective fun _ _ heq => Except.ok.inj heq
  rw [← hok, hresults, List.mem_map]

/-- Suppliers that come in groups. -/
theorem findSome?_flatMap {γ : Type} {g : γ → List α} {f : α → Option β} (cs : List γ) :
    (cs.flatMap g).findSome? f = cs.findSome? fun c => (g c).findSome? f := by
  induction cs with
  | nil => rfl
  | cons c cs ih =>
      rw [List.flatMap_cons, List.findSome?_append, ih, List.findSome?_cons]
      cases (g c).findSome? f <;> rfl

/-- Only the key itself is looked for. -/
theorem findSome?_ite_eq [DecidableEq κ] (as : List κ) (k : κ) (v : Option β) :
    as.findSome? (fun a => if a = k then v else none) = if k ∈ as then v else none := by
  induction as with
  | nil => rfl
  | cons a as ih =>
      rw [List.findSome?_cons, ih]
      by_cases ha : a = k
      · subst ha
        rw [if_pos rfl, if_pos List.mem_cons_self]
        cases v with
        | none => exact ite_self none
        | some b => rfl
      · have hmem : k ∈ a :: as ↔ k ∈ as := by
          rw [List.mem_cons, or_iff_right (Ne.symm ha)]
        rw [if_neg ha, if_congr hmem rfl rfl]

/-! ## Adding and clearing -/

section

variable (clears : α → Bool) (brings : α → List β)

/-- A supplier clears the list, or not, and adds to it. -/
def gather (acc : List β) (a : α) : List β := if clears a then brings a else acc ++ brings a

/-- The list after all suppliers. -/
def gathered (as : List α) : List β := as.foldl (gather clears brings) []

variable {clears brings}

theorem foldl_gather_of_none {as : List α} (h : ∀ a ∈ as, clears a = false) (acc : List β) :
    as.foldl (gather clears brings) acc = acc ++ as.flatMap brings := by
  induction as generalizing acc with
  | nil => exact (List.append_nil acc).symm
  | cons a as ih =>
      have ha := h a List.mem_cons_self
      rw [List.foldl_cons, ih fun b hb => h b (List.mem_cons_of_mem a hb), gather, ha,
        List.flatMap_cons, ← List.append_assoc]
      rfl

/-- What was there before the last supplier that clears is gone. -/
theorem gathered_append_cons {a : α} {after : List α} (ha : clears a = true)
    (hafter : ∀ b ∈ after, clears b = false) (before : List α) :
    gathered clears brings (before ++ a :: after) = (a :: after).flatMap brings := by
  rw [gathered, List.foldl_append, List.foldl_cons, gather, if_pos ha,
    foldl_gather_of_none hafter, List.flatMap_cons]

/-- The last supplier that clears. -/
theorem exists_last_clears (clears : α → Bool) (as : List α) :
    (∀ a ∈ as, clears a = false) ∨ ∃ before a after, as = before ++ a :: after ∧
      clears a = true ∧ ∀ b ∈ after, clears b = false := by
  induction as with
  | nil => exact .inl fun a ha => absurd ha List.not_mem_nil
  | cons a as ih =>
      obtain hnone | ⟨before, b, after, rfl, hb, hafter⟩ := ih
      · cases ha : clears a with
        | true => exact .inr ⟨[], a, as, rfl, ha, hnone⟩
        | false => exact .inl (List.forall_mem_cons.mpr ⟨ha, hnone⟩)
      · exact .inr ⟨a :: before, b, after, rfl, hb, hafter⟩

theorem exists_of_mem_gathered {as : List α} {b : β} (h : b ∈ gathered clears brings as) :
    ∃ a ∈ as, b ∈ brings a := by
  obtain hnone | ⟨before, a, after, rfl, ha, hafter⟩ := exists_last_clears clears as
  · rw [gathered, foldl_gather_of_none hnone, List.nil_append] at h
    exact List.mem_flatMap.mp h
  · rw [gathered_append_cons ha hafter] at h
    obtain ⟨c, hc, hb⟩ := List.mem_flatMap.mp h
    exact ⟨c, List.mem_append_right before hc, hb⟩

/-- What a supplier brings is not lost exactly if, when it comes before the last one that clears,
it comes again. -/
theorem mem_gathered_of_brings_iff {as : List α} {b : β} :
    (∀ a ∈ as, b ∈ brings a → b ∈ gathered clears brings as) ↔
      ∀ before p after, as = before ++ p :: after → clears p = true →
        (∀ c ∈ after, clears c = false) →
        ∀ a ∈ before, b ∈ brings a → ∃ c ∈ p :: after, b ∈ brings c := by
  constructor
  · rintro h before p after rfl hp hafter a ha hb
    have hmem := h a (List.mem_append_left _ ha) hb
    rw [gathered_append_cons hp hafter] at hmem
    exact List.mem_flatMap.mp hmem
  · intro h a ha hb
    obtain hnone | ⟨before, p, after, rfl, hp, hafter⟩ := exists_last_clears clears as
    · rw [gathered, foldl_gather_of_none hnone, List.nil_append]
      exact List.mem_flatMap.mpr ⟨a, ha, hb⟩
    · rw [gathered_append_cons hp hafter]
      refine List.mem_flatMap.mpr ?_
      obtain ha | ha := List.mem_append.mp ha
      · exact h before p after rfl hp hafter a ha hb
      · exact ⟨a, ha, hb⟩

end

/-! ## Once for each key -/

section

variable [DecidableEq κ] (g : κ → β → β)

/-- The table after what is there for each of some keys has been replaced. -/
def onKeys (ks : List κ) (t : κ → β) : κ → β := fun k => if k ∈ ks then g k (t k) else t k

variable {g} {k : κ} {ks : List κ} {t : κ → β}

theorem onKeys_nil : onKeys g [] t = t := by
  funext k
  exact if_neg List.not_mem_nil

theorem onKeys_update (hk : k ∉ ks) :
    onKeys g ks (Function.update t k (g k (t k))) = onKeys g (k :: ks) t := by
  funext k'
  by_cases hk' : k' = k
  · subst hk'
    rw [onKeys, onKeys, if_neg hk, if_pos List.mem_cons_self, Function.update_self]
  · have hmem : k' ∈ k :: ks ↔ k' ∈ ks := by rw [List.mem_cons, or_iff_right hk']
    rw [onKeys, onKeys, Function.update_of_ne hk', if_congr hmem rfl rfl]

theorem onKeys_of_forall_mem (h : ∀ k, k ∈ ks) : onKeys g ks t = fun k => g k (t k) := by
  funext k
  exact if_pos (h k)

end

end Kyber.Lib
