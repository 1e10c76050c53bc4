import Kyber.Sdk.EntityOwner

/-!
# Which owners a walk visits

The two functions are to visit an owner and its descendants. They follow the link to the
next sibling at every owner, and so also at the one that they are called for: what they
visit is the owner's tree and the trees of all its later siblings (`get_linked`,
`destroy_linked`). That is the owner's tree exactly if it has no next sibling.
-/

namespace Kyber.Sdk

open Kyber.Lib EntityOwner

def Memory.links (m : Memory) : Links Ptr where
  firstChild p := (m p).firstChild
  nextSibling p := (m p).nextSibling

/-- The entities of some owners, in the order of the owners. -/
def Memory.entitiesOf (m : Memory) (owners : List Ptr) : List NativeEntity :=
  owners.flatMap fun p => (m p).getOwnedEntities none

/-! ## `GetOwnedEntitiesRecursively` -/

section

variable {m : Memory} {fuel : Nat}

theorem get_succ (m : Memory) (fuel : Nat) (p : Ptr) :
    getOwnedEntitiesRecursively m (fuel + 1) p =
      ((m p).firstChild.elim (some []) (getOwnedEntitiesRecursively m fuel)).bind fun children =>
        ((m p).nextSibling.elim (some []) (getOwnedEntitiesRecursively m fuel)).bind fun siblings =>
          some ((m p).getOwnedEntities none ++ children ++ siblings) := by
  rw [getOwnedEntitiesRecursively]
  cases (m p).firstChild <;> cases (m p).nextSibling <;> rfl

theorem get_linked {q : Option Ptr} {f : Forest Ptr} (h : m.links.Linked q f)
    (hfuel : f.nodes.length ≤ fuel) :
    q.elim (some []) (getOwnedEntitiesRecursively m fuel) = some (m.entitiesOf f.nodes) := by
  induction f generalizing q fuel with
  | nil =>
      cases h
      rfl
  | cons a children rest ihChildren ihRest =>
      cases h with
      | cons hchildren hrest =>
          rw [Forest.nodes, List.length_cons, List.length_append] at hfuel
          cases fuel with
          | zero => omega
          | succ fuel =>
              have hbelow : (m a).firstChild.elim (some []) (getOwnedEntitiesRecursively m fuel) =
                  some (m.entitiesOf children.nodes) := ihChildren hchildren (by omega)
              have hafter : (m a).nextSibling.elim (some []) (getOwnedEntitiesRecursively m fuel) =
                  some (m.entitiesOf rest.nodes) := ihRest hrest (by omega)
              rw [Option.elim, get_succ, hbelow, Option.bind_some, hafter, Option.bind_some]
              simp only [Memory.entitiesOf, Forest.nodes, List.flatMap_cons, List.flatMap_append,
                List.append_assoc]

end

/-! ## `DestroyOwnedEntitiesRecursively` -/

section

variable {destroyOwnedEntities : Ptr → Realm → Memory → Memory} {realm : Realm} {m : Memory}
  {fuel : Nat}

/-- The engine leaves the owners where they are. -/
def KeepsLinks (destroyOwnedEntities : Ptr → Realm → Memory → Memory) : Prop :=
  ∀ p realm m, (destroyOwnedEntities p realm m).links = m.links

theorem destroy_succ (fuel : Nat) (p : Ptr) (m : Memory) :
    destroyOwnedEntitiesRecursively destroyOwnedEntities realm (fuel + 1) p m =
      let m₀ := destroyOwnedEntities p realm m
      ((m₀ p).firstChild.elim (some (m₀, [])) fun child =>
        destroyOwnedEntitiesRecursively destroyOwnedEntities realm fuel child m₀).bind fun below =>
      ((below.1 p).nextSibling.elim (some (below.1, [])) fun sibling =>
        destroyOwnedEntitiesRecursively destroyOwnedEntities realm fuel sibling below.1).bind
          fun after => some (after.1, p :: (below.2 ++ after.2)) := by
  rw [destroyOwnedEntitiesRecursively]
  cases hchild : (destroyOwnedEntities p realm m p).firstChild with
  | none =>
      cases hsibling : (destroyOwnedEntities p realm m p).nextSibling <;> simp [hchild, hsibling]
  | some child =>
      simp only [hchild, Option.elim]
      refine congrArg (Option.bind _) (funext fun below => ?_)
      cases (below.1 p).nextSibling <;> rfl

variable (realm) in
theorem destroy_linked (hkeeps : KeepsLinks destroyOwnedEntities) {links : Links Ptr}
    {q : Option Ptr} {f : Forest Ptr} (h : links.Linked q f) (hm : m.links = links)
    (hfuel : f.nodes.length ≤ fuel) :
    ∃ m', (q.elim (some (m, [])) fun p =>
      destroyOwnedEntitiesRecursively destroyOwnedEntities realm fuel p m) = some (m', f.nodes) ∧
      m'.links = links := by
  induction f generalizing q fuel m with
  | nil =>
      cases h
      exact ⟨m, rfl, hm⟩
  | cons a children rest ihChildren ihRest =>
      cases h with
      | cons hchildren hrest =>
          rw [Forest.nodes, List.length_cons, List.length_append] at hfuel
          cases fuel with
          | zero => omega
          | succ fuel =>
              have hm₀ : (destroyOwnedEntities a realm m).links = links := (hkeeps a realm m).trans hm
              obtain ⟨m₁, hbelow, hm₁⟩ := ihChildren hchildren hm₀ (show _ ≤ fuel by omega)
              obtain ⟨m₂, hafter, hm₂⟩ := ihRest hrest hm₁ (show _ ≤ fuel by omega)
              refine ⟨m₂, ?_, hm₂⟩
              have hchild : (destroyOwnedEntities a realm m a).firstChild = links.firstChild a := by
                rw [← hm₀]
                rfl
              have hsibling : (m₁ a).nextSibling = links.nextSibling a := by
                rw [← hm₁]
                rfl
              rw [Option.elim, destroy_succ]
              simp only [hchild, hbelow, Option.bind_some, hsibling, hafter, Forest.nodes]

end

/-! ## The owner's tree -/

/-- The walks from `r` visit the owner's tree, of which `children` is what is below it. -/
structure VisitsSubtree (destroyOwnedEntities : Ptr → Realm → Memory → Memory) (realm : Realm)
    (m : Memory) (fuel : Nat) (r : Ptr) (children : Forest Ptr) : Prop where
  get : getOwnedEntitiesRecursively m fuel r = some (m.entitiesOf (r :: children.nodes))
  destroy : ∃ m' touched,
    destroyOwnedEntitiesRecursively destroyOwnedEntities realm fuel r m = some (m', touched) ∧
      touched.Nodup ∧ ∀ p, p ∈ touched ↔ p ∈ r :: children.nodes

/-- They do so exactly if it has no next sibling. -/
theorem visitsSubtree_iff {destroyOwnedEntities : Ptr → Realm → Memory → Memory}
    (hkeeps : KeepsLinks destroyOwnedEntities) (realm : Realm) {m : Memory} {root : Option Ptr}
    {tree : Forest Ptr} (htree : m.links.Linked root tree) (hnodup : tree.nodes.Nodup) {r : Ptr}
    {children siblings : Forest Ptr} (hr : Forest.Occurs r children siblings tree) {fuel : Nat}
    (hfuel : tree.nodes.length ≤ fuel) :
    VisitsSubtree destroyOwnedEntities realm m fuel r children ↔ (m r).nextSibling = none := by
  have hlinked := htree.occurs hr
  have hlength := Nat.le_trans hr.sublist.length_le hfuel
  have hdistinct := hr.sublist.nodup hnodup
  have hget : getOwnedEntitiesRecursively m fuel r =
      some (m.entitiesOf (Forest.cons r children siblings).nodes) := get_linked hlinked hlength
  obtain ⟨m₁, hdestroy, -⟩ := destroy_linked realm hkeeps hlinked rfl hlength
  rw [Option.elim] at hdestroy
  have hsiblings : (m r).nextSibling = none ↔ siblings = .nil := by
    cases hlinked with
    | cons hchildren hrest => exact hrest.eq_none_iff
  rw [hsiblings]
  constructor
  · intro h
    obtain ⟨m', touched, heq, -, hmem⟩ := h.destroy
    cases hdestroy.symm.trans heq
    cases siblings with
    | nil => rfl
    | cons b below after =>
        -- The first sibling is visited, and is not in the owner's tree.
        have hb : b ∈ r :: children.nodes := (hmem b).mp (by simp [Forest.nodes])
        rw [Forest.nodes, ← List.cons_append, List.nodup_append] at hdistinct
        exact absurd rfl (hdistinct.2.2 b hb b List.mem_cons_self)
  · rintro rfl
    have hnodes : (Forest.cons r children .nil).nodes = r :: children.nodes := by
      rw [Forest.nodes, Forest.nodes, List.append_nil]
    rw [hnodes] at hget hdestroy hdistinct
    exact ⟨hget, m₁, _, hdestroy, hdistinct, fun p => Iff.rfl⟩

/-! ## Two children -/

/-- Owner 1 has the children 2 and 3, and every owner has an entity. -/
def twoChildren : Memory := fun p =>
  { entities := [⟨p + 16, none⟩]
    firstChild := if p = 1 then some 2 else none
    nextSibling := if p = 2 then some 3 else none }

def twoChildrenTree : Forest Ptr := .cons 1 (.cons 2 .nil (.cons 3 .nil .nil)) .nil

theorem twoChildren_linked : twoChildren.links.Linked (some 1) twoChildrenTree :=
  .cons (.cons .nil (.cons .nil .nil)) .nil

/-- The root has no sibling. -/
theorem root_visitsSubtree :
    VisitsSubtree (fun _ _ m => m) .server twoChildren 3 1 (.cons 2 .nil (.cons 3 .nil .nil)) :=
  (visitsSubtree_iff (fun _ _ _ => rfl) .server twoChildren_linked (by decide) .here
    (by decide)).mpr rfl

/-- From owner 2 the walks go on to owner 3. -/
theorem child_visits_sibling :
    ¬ VisitsSubtree (fun _ _ m => m) .server twoChildren 3 2 .nil := by
  intro h
  have hget := h.get
  rw [show getOwnedEntitiesRecursively twoChildren 3 2 = some [⟨18, none⟩, ⟨19, none⟩] by decide]
    at hget
  cases hget

end Kyber.Sdk

/-!
## All busses below a bus

The function follows the link to the next sibling from the children on, and not from the bus
that it is called for. So it returns the busses below this one, each before those below itself,
and no other ones.
-/

namespace Kyber.Sdk.EntityBus

open Kyber.Lib

def Memory.links (m : Memory) : Links Ptr where
  firstChild p := (m p).firstChild
  nextSibling p := (m p).nextSibling

variable {m : Memory}

/-- The loop adds the trees that hang on its link, if the calls return what is below the roots. -/
theorem childLoop_linked {call : Ptr → Option (List Ptr)} {q : Option Ptr} {f : Forest Ptr}
    (h : m.links.Linked q f)
    (hcall : ∀ a children rest, Forest.Occurs a children rest f → call a = some children.nodes)
    {rounds : Nat} (hrounds : f.nodes.length ≤ rounds) (busses : List Ptr) :
    childLoop m call rounds q busses = some (busses ++ f.nodes) := by
  induction h generalizing rounds busses with
  | nil =>
      rw [Forest.nodes, List.append_nil, childLoop]
  | @cons a children rest hchildren hrest _ ihRest =>
      rw [Forest.nodes, List.length_cons, List.length_append] at hrounds
      cases rounds with
      | zero => omega
      | succ rounds =>
          have hbelow : call a = some children.nodes := hcall a children rest .here
          have hsiblings := ihRest (fun b below after hb => hcall b below after (.sibling hb))
            (show rest.nodes.length ≤ rounds by omega) (busses ++ [a] ++ children.nodes)
          rw [childLoop, hbelow, Option.bind_eq_bind, Option.bind_some]
          refine hsiblings.trans ?_
          rw [Forest.nodes, List.append_assoc, List.append_assoc, List.singleton_append]

/-- A call returns what is below its bus. -/
theorem getAllChildBusses_linked {b : Ptr} {children : Forest Ptr}
    (h : m.links.Linked (m b).firstChild children) {fuel : Nat}
    (hfuel : children.nodes.length < fuel) :
    getAllChildBusses m fuel b = some children.nodes := by
  induction fuel generalizing b children with
  | zero => omega
  | succ fuel ih =>
      rw [getAllChildBusses]
      refine childLoop_linked h (fun a below after ha => ?_) (by omega) []
      obtain ⟨_, _, heq, hbelow, -⟩ := Links.linked_some_iff.mp (h.occurs ha)
      cases heq
      have hlength := ha.sublist.length_le
      rw [Forest.nodes, List.length_cons, List.length_append] at hlength
      exact ih hbelow (by omega)

/-- The busses below a bus, each once and before those below itself, and none besides. -/
structure Descendants (m : Memory) (b : Ptr) (children siblings : Forest Ptr)
    (busses : List Ptr) : Prop where
  preorder : busses = children.nodes
  nodup : busses.Nodup
  below : ∀ p, p ∈ busses ↔ Relation.TransGen m.links.Child b p
  notSelf : b ∉ busses
  notSibling : ∀ p ∈ siblings.nodes, p ∉ busses

/-- In a tree every bus returns exactly what is below it. -/
theorem getAllChildBusses_descendants {root : Option Ptr} {tree : Forest Ptr}
    (htree : m.links.Linked root tree) (hnodup : tree.nodes.Nodup) {b : Ptr}
    (hb : b ∈ tree.nodes) {fuel : Nat} (hfuel : tree.nodes.length ≤ fuel) :
    ∃ children siblings busses, Forest.Occurs b children siblings tree ∧
      getAllChildBusses m fuel b = some busses ∧
      Descendants m b children siblings busses := by
  obtain ⟨children, siblings, hb⟩ := Forest.exists_occurs hb
  obtain ⟨_, _, heq, hbelow, -⟩ := Links.linked_some_iff.mp (htree.occurs hb)
  cases heq
  have hlength := Nat.le_trans hb.sublist.length_le hfuel
  have hdistinct := hb.sublist.nodup hnodup
  rw [Forest.nodes, List.length_cons, List.length_append] at hlength
  rw [Forest.nodes, List.nodup_cons, List.mem_append, List.nodup_append] at hdistinct
  obtain ⟨hself, hchildren, -, hdisjoint⟩ := hdistinct
  refine ⟨children, siblings, children.nodes, hb, getAllChildBusses_linked hbelow (by omega), rfl,
    hchildren, fun p => hbelow.mem_children_iff, fun h => hself (.inl h), fun p hp h => ?_⟩
  exact hdisjoint p h p hp rfl

/-- Bus 1 has the children 2 and 4, and bus 2 has the child 3. -/
def threeBelow : Memory := fun p =>
  { firstChild := if p = 1 then some 2 else if p = 2 then some 3 else none
    nextSibling := if p = 2 then some 4 else none }

def threeBelowTree : Forest Ptr :=
  .cons 1 (.cons 2 (.cons 3 .nil .nil) (.cons 4 .nil .nil)) .nil

theorem threeBelow_linked : threeBelow.links.Linked (some 1) threeBelowTree :=
  .cons (.cons (.cons .nil .nil) (.cons .nil .nil)) .nil

theorem threeBelow_descendants :
    ∃ children siblings busses, Forest.Occurs 2 children siblings threeBelowTree ∧
      getAllChildBusses threeBelow 4 2 = some busses ∧
      Descendants threeBelow 2 children siblings busses :=
  getAllChildBusses_descendants threeBelow_linked (by decide) (by decide) (by decide)

example : getAllChildBusses threeBelow 4 1 = some [2, 3, 4] := by decide

end Kyber.Sdk.EntityBus
