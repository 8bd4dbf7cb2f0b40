import JsxLint.Span
import JsxLint.Tree.Kind

/-! Parsed source files as trees, and the sites of a tree: its nodes in source order, each with
the nodes around it. Trees are taken as given; nothing here parses. -/
namespace JsxLint

/-- A node: what it is, where it stands and what it is made of, in source order. -/
inductive Node
  | mk (kind : Kind) (span : Span) (children : List Node)
  deriving Repr

namespace Node

def kind : Node → Kind
  | mk kind _ _ => kind

def span : Node → Span
  | mk _ span _ => span

def children : Node → List Node
  | mk _ _ children => children

@[simp] theorem kind_mk (k : Kind) (s : Span) (cs : List Node) : (mk k s cs).kind = k := rfl

@[simp] theorem span_mk (k : Kind) (s : Span) (cs : List Node) : (mk k s cs).span = s := rfl

@[simp] theorem children_mk (k : Kind) (s : Span) (cs : List Node) : (mk k s cs).children = cs :=
  rfl

end Node

/-- The ancestors of a node, the nearest first. -/
abbrev Surroundings := List Node

structure Site where
  node : Node
  around : Surroundings
  deriving Repr

mutual

/-- The sites of a subtree that stands below `around`, each node before its parts. -/
def Node.sitesBelow (around : Surroundings) : Node → List Site
  | .mk k s cs => ⟨.mk k s cs, around⟩ :: sitesBelowAll (.mk k s cs :: around) cs

def sitesBelowAll (around : Surroundings) : List Node → List Site
  | [] => []
  | n :: ns => n.sitesBelow around ++ sitesBelowAll around ns

end

def Node.sites (root : Node) : List Site :=
  root.sitesBelow []

mutual

def Node.hasKind (p : Kind → Bool) : Node → Bool
  | .mk k _ cs => p k || anyHasKind p cs

def anyHasKind (p : Kind → Bool) : List Node → Bool
  | [] => false
  | n :: ns => n.hasKind p || anyHasKind p ns

end

mutual

def Node.size : Node → Nat
  | .mk _ _ cs => sizeAll cs + 1

def sizeAll : List Node → Nat
  | [] => 0
  | n :: ns => n.size + sizeAll ns

end

theorem Node.size_mk (k : Kind) (s : Span) (cs : List Node) :
    (Node.mk k s cs).size = sizeAll cs + 1 := by
  rw [Node.size]

theorem Node.size_pos (n : Node) : 0 < n.size := by
  cases n; rw [size_mk]; exact Nat.succ_pos _

theorem sizeAll_cons (n : Node) (ns : List Node) : sizeAll (n :: ns) = n.size + sizeAll ns := by
  rw [sizeAll]

theorem sizeAll_append (ms ns : List Node) : sizeAll (ms ++ ns) = sizeAll ms + sizeAll ns := by
  induction ms with
  | nil => rw [List.nil_append, sizeAll, Nat.zero_add]
  | cons m ms ih => rw [List.cons_append, sizeAll_cons, sizeAll_cons, ih, Nat.add_assoc]

theorem sitesBelowAll_eq_flatMap (around ns : List Node) :
    sitesBelowAll around ns = ns.flatMap (·.sitesBelow around) := by
  induction ns with
  | nil => rfl
  | cons n ns ih => rw [sitesBelowAll, ih, List.flatMap_cons]

end JsxLint
