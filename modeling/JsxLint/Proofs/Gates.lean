import JsxLint.Placement
import Mathlib.Tactic.Common

/-! The gates of a tree: the conditions that decide whether JSX is rendered, said without the
search that finds them. A container stands in the prop of the nearest attribute, unless an element
or a fragment is nearer; the tag that must have a printable name may be any tag further out. -/
namespace JsxLint

def Node.isPlace (n : Node) : Bool :=
  match n.kind with
  | .jsxAttribute _ | .element | .fragment => true
  | _ => false

/-- The nearest place is an attribute called `name`, in some tag with a printable name. -/
def Surroundings.InProp (around : Surroundings) (name : String) : Prop :=
  ∃ attr outer, around.dropWhile (!·.isPlace) = attr :: outer ∧
    attr.attributeName? = some name ∧ ∃ tag ∈ outer, tag.openingName? ≠ none

/-- The condition decides at the site whether JSX is rendered: the left of `&&` before JSX, the
test of a ternary with JSX in a branch, or the expression in the container of a gating prop. -/
inductive Site.Gates : Site → Node → Prop
  | conjunction {span : Span} {left right : Node} {around : Surroundings}
      (jsx : right.containsJsx = true) : Gates ⟨.mk (.logical .and) span [left, right], around⟩ left
  | ternary {span : Span} {test consequent alternate : Node} {around : Surroundings}
      (jsx : consequent.containsJsx = true ∨ alternate.containsJsx = true) :
      Gates ⟨.mk .conditional span [test, consequent, alternate], around⟩ test
  | prop {span : Span} {e : Node} {rest : List Node} {around : Surroundings} {name : String}
      (filled : e.kind ≠ .emptyExpression) (inProp : around.InProp name)
      (gating : name ∈ ["condition", "when", "if"]) :
      Gates ⟨.mk .container span (e :: rest), around⟩ e

def Site.Reads (site : Site) (name : String) : Prop :=
  ∃ condition, site.Gates condition ∧ name ∈ condition.gatingNames

lemma isGatingProp_iff {name : String} :
    isGatingProp name = true ↔ name ∈ ["condition", "when", "if"] := by
  rw [isGatingProp, gatingProps, List.contains_iff_mem]

lemma Placement.of?_skip {n : Node} (h : n.isPlace = false) (outer : Surroundings) :
    Placement.of? (n :: outer) = Placement.of? outer := by
  rw [Placement.of?]
  unfold Node.isPlace at h
  split <;> simp_all

lemma Placement.of?_dropWhile (around : Surroundings) :
    Placement.of? around = Placement.of? (around.dropWhile (!·.isPlace)) := by
  induction around with
  | nil => rfl
  | cons n outer ih =>
    cases h : n.isPlace with
    | true => rw [List.dropWhile_cons_of_neg (by simp [h])]
    | false => rw [List.dropWhile_cons_of_pos (by simp [h]), of?_skip h, ih]

lemma Placement.prop?_of?_cons {n : Node} (h : n.isPlace = true) (outer : Surroundings)
    (name : String) :
    (Placement.of? (n :: outer)).bind Placement.prop? = some name ↔
      n.attributeName? = some name ∧ ∃ tag ∈ outer, tag.openingName? ≠ none := by
  have hchild : ∀ k, n.kind = k → (∀ printed, k ≠ .jsxAttribute printed) →
      n.attributeName? = none := by
    intro k hk hne
    unfold Node.attributeName?
    split
    · exact absurd hk.symm (hne _)
    · rfl
  rw [Placement.of?]
  unfold Node.isPlace at h
  split
  · simp only [Option.bind_eq_bind, Option.bind_eq_some_iff]
    constructor
    · rintro ⟨placement, ⟨element, helement, word, hword, hplacement⟩, hprop⟩
      obtain rfl := Option.some.inj hplacement
      obtain rfl := Option.some.inj hprop
      obtain ⟨tag, htag, hname⟩ := List.exists_of_findSome?_eq_some helement
      exact ⟨hword, tag, htag, by simp [hname]⟩
    · rintro ⟨hword, tag, htag, hopening⟩
      have hsome : (outer.findSome? Node.openingName?).isSome = true :=
        List.findSome?_isSome_iff.mpr ⟨tag, htag, Option.isSome_iff_ne_none.mpr hopening⟩
      obtain ⟨element, helement⟩ := Option.isSome_iff_exists.mp hsome
      exact ⟨.prop name element, ⟨element, helement, name, hword, rfl⟩, rfl⟩
  · rename_i hkind
    rw [hchild _ hkind (by simp)]
    cases n.elementName? <;> simp [Placement.prop?]
  · rename_i hkind
    rw [hchild _ hkind (by simp)]
    simp [Placement.prop?]
  · simp_all

theorem Placement.prop?_of?_eq_some_iff {around : Surroundings} {name : String} :
    (Placement.of? around).bind Placement.prop? = some name ↔ around.InProp name := by
  rw [Placement.of?_dropWhile, Surroundings.InProp]
  cases hdrop : around.dropWhile (!·.isPlace) with
  | nil => simp [Placement.of?]
  | cons n outer =>
    have hplace : n.isPlace = true := by
      have hne : around.dropWhile (!·.isPlace) ≠ [] := by simp [hdrop]
      simpa [hdrop] using List.head_dropWhile_not _ hne
    rw [Placement.prop?_of?_cons hplace]
    simp

lemma Node.containedExpression?_eq_some_iff {span : Span} {parts : List Node} {e : Node} :
    (Node.mk .container span parts).containedExpression? = some e ↔
      ∃ rest, parts = e :: rest ∧ e.kind ≠ .emptyExpression := by
  unfold Node.containedExpression?
  split
  · rename_i heq
    obtain ⟨-, -, rfl⟩ := Node.mk.inj heq
    refine ⟨nofun, ?_⟩
    rintro ⟨rest, hparts, hkind⟩
    obtain ⟨rfl, -⟩ := List.cons.inj hparts
    exact absurd rfl hkind
  · rename_i first others hempty heq
    obtain ⟨-, -, rfl⟩ := Node.mk.inj heq
    constructor
    · intro h
      obtain rfl := Option.some.inj h
      refine ⟨others, rfl, ?_⟩
      intro hkind
      obtain ⟨k, s, cs⟩ := first
      obtain rfl : k = .emptyExpression := hkind
      exact hempty s cs rfl
    · rintro ⟨rest, hparts, -⟩
      rw [(List.cons.inj hparts).1]
  · rename_i hfilled
    refine ⟨nofun, ?_⟩
    rintro ⟨rest, rfl, -⟩
    exact absurd rfl (hfilled span e rest)

/-- The executable search finds exactly the conditions that gate JSX. -/
theorem Site.gate?_eq_some_iff {site : Site} {condition : Node} :
    site.gate? = some condition ↔ site.Gates condition := by
  constructor
  · intro h
    obtain ⟨node, around⟩ := site
    unfold Site.gate? at h
    split at h
    · rename_i heq
      change node = _ at heq
      subst heq
      split at h
      · obtain rfl := Option.some.inj h
        exact .conjunction ‹_›
      · cases h
    · rename_i heq
      change node = _ at heq
      subst heq
      split at h
      · rename_i hjsx
        obtain rfl := Option.some.inj h
        exact .ternary (by simpa using hjsx)
      · cases h
    · rename_i heq
      change node = _ at heq
      subst heq
      split at h
      · rename_i hprop
        obtain ⟨name, hname, hgating⟩ := (Option.any_eq_true _ _).mp hprop
        obtain ⟨rest, rfl, hfilled⟩ := Node.containedExpression?_eq_some_iff.mp h
        exact .prop hfilled (Placement.prop?_of?_eq_some_iff.mp hname) (isGatingProp_iff.mp hgating)
      · cases h
    · cases h
  · intro h
    cases h with
    | conjunction jsx => simp [Site.gate?, jsx]
    | ternary jsx => simp [Site.gate?, jsx]
    | prop filled inProp gating =>
      have hname := Placement.prop?_of?_eq_some_iff.mpr inProp
      simp only [Site.gate?, hname, Option.any_some, isGatingProp_iff.mpr gating, if_true]
      exact Node.containedExpression?_eq_some_iff.mpr ⟨_, rfl, filled⟩

end JsxLint
