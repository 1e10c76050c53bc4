import Mathlib.Data.List.Nodup
import Mathlib.Logic.Relation

/-!
# Forests by first child and next sibling

A forest that is not empty is the root of its first tree, the forest of the root's
children, and the forest of the trees that come after. Nodes that have a link to a first
child and one to a next sibling hold a forest in just this shape (`Linked`), and a walk
that follows both links from a node goes through the node's tree and then through the
trees of all later siblings. The nodes below a node are those that are reached from it by
going to a child again and again (`Linked.mem_nodes_iff`).
-/

namespace Kyber.Lib

inductive Forest (α : Type)
  | nil
  | cons (root : α) (children rest : Forest α)

namespace Forest

variable {α β : Type}

/-- The nodes, each before its children. -/
def nodes : Forest α → List α
  | nil => []
  | cons root children rest => root :: (children.nodes ++ rest.nodes)

/-- A node of the forest, with its children and the trees that come after its own. -/
inductive Occurs (a : α) (children rest : Forest α) : Forest α → Prop
  | here : Occurs a children rest (cons a children rest)
  | child {b : α} {f g : Forest α} (h : Occurs a children rest f) :
      Occurs a children rest (cons b f g)
  | sibling {b : α} {f g : Forest α} (h : Occurs a children rest g) :
      Occurs a children rest (cons b f g)

theorem Occurs.sublist {a : α} {children rest f : Forest α} (h : Occurs a children rest f) :
    (cons a children rest).nodes.Sublist f.nodes := by
  induction h with
  | here => exact List.Sublist.refl _
  | child h ih => exact (ih.trans (List.sublist_append_left _ _)).cons _
  | sibling h ih => exact (ih.trans (List.sublist_append_right _ _)).cons _

theorem exists_occurs {a : α} {f : Forest α} (h : a ∈ f.nodes) :
    ∃ children rest, Occurs a children rest f := by
  induction f with
  | nil => cases h
  | cons root children rest ihChildren ihRest =>
      rw [nodes, List.mem_cons, List.mem_append] at h
      obtain rfl | h | h := h
      · exact ⟨children, rest, .here⟩
      · obtain ⟨below, after, ha⟩ := ihChildren h
        exact ⟨below, after, .child ha⟩
      · obtain ⟨below, after, ha⟩ := ihRest h
        exact ⟨below, after, .sibling ha⟩

end Forest

/-! ## Links -/

structure Links (α : Type) where
  firstChild : α → Option α
  nextSibling : α → Option α

namespace Links

variable {α : Type}

/-- What hangs on a link is a forest. -/
inductive Linked (links : Links α) : Option α → Forest α → Prop
  | nil : Linked links none .nil
  | cons {a : α} {children rest : Forest α} (hchildren : Linked links (links.firstChild a) children)
      (hrest : Linked links (links.nextSibling a) rest) : Linked links (some a) (.cons a children rest)

variable {links : Links α}

theorem linked_some_iff {a : α} {f : Forest α} :
    Linked links (some a) f ↔ ∃ children rest, f = .cons a children rest ∧
      Linked links (links.firstChild a) children ∧ Linked links (links.nextSibling a) rest := by
  constructor
  · intro h
    cases h with
    | cons hchildren hrest => exact ⟨_, _, rfl, hchildren, hrest⟩
  · rintro ⟨children, rest, rfl, hchildren, hrest⟩
    exact .cons hchildren hrest

/-- A link is null exactly if no trees hang on it. -/
theorem Linked.eq_none_iff {p : Option α} {f : Forest α} (h : Linked links p f) :
    p = none ↔ f = .nil := by
  cases h <;> simp

theorem Linked.occurs {p : Option α} {a : α} {children rest f : Forest α} (h : Linked links p f)
    (ha : Forest.Occurs a children rest f) : Linked links (some a) (.cons a children rest) := by
  induction ha generalizing p with
  | here =>
      cases h with
      | cons hchildren hrest => exact .cons hchildren hrest
  | child ha ih =>
      cases h with
      | cons hchildren hrest => exact ih hchildren
  | sibling ha ih =>
      cases h with
      | cons hchildren hrest => exact ih hrest

/-! ## Children -/

/-- A node in the chain of siblings that hangs on a link. -/
inductive Hangs (links : Links α) : Option α → α → Prop
  | here {a : α} : Hangs links (some a) a
  | next {a b : α} (h : Hangs links (links.nextSibling a) b) : Hangs links (some a) b

def Child (links : Links α) (a b : α) : Prop := links.Hangs (links.firstChild a) b

/-- The nodes of a forest are those of the chain and those below them. -/
theorem Linked.mem_nodes_iff {p : Option α} {f : Forest α} (h : Linked links p f) {b : α} :
    b ∈ f.nodes ↔ ∃ a, links.Hangs p a ∧ Relation.ReflTransGen links.Child a b := by
  induction h with
  | nil =>
      refine ⟨fun hb => ?_, fun ⟨a, ha, _⟩ => ?_⟩
      · cases hb
      · cases ha
  | @cons a children rest hchildren hrest ihChildren ihRest =>
      rw [Forest.nodes, List.mem_cons, List.mem_append, ihChildren, ihRest]
      constructor
      · intro hb
        obtain rfl | ⟨c, hc, hbelow⟩ | ⟨c, hc, hbelow⟩ := hb
        · exact ⟨b, .here, .refl⟩
        · exact ⟨a, .here, .head hc hbelow⟩
        · exact ⟨c, .next hc, hbelow⟩
      · intro hb
        obtain ⟨c, hc, hbelow⟩ := hb
        cases hc with
        | here =>
            obtain rfl | ⟨d, hd, hbelow⟩ := hbelow.cases_head
            · exact .inl rfl
            · exact .inr (.inl ⟨d, hd, hbelow⟩)
        | next hc => exact .inr (.inr ⟨c, hc, hbelow⟩)

/-- The nodes of the trees that hang on a node are those below it. -/
theorem Linked.mem_children_iff {a b : α} {children : Forest α}
    (h : Linked links (links.firstChild a) children) :
    b ∈ children.nodes ↔ Relation.TransGen links.Child a b := by
  rw [h.mem_nodes_iff, Relation.TransGen.head'_iff]
  rfl

end Links

end Kyber.Lib
