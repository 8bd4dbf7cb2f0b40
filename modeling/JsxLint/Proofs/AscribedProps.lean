import JsxLint.Component.Props
import JsxLint.Proofs.Rewrapping
import JsxLint.Proofs.Sites
import Mathlib.Data.List.Find

/-! The props type in the type of a variable. In `FC<Themed<PanelProps>>` the search looks for a
reference with a name like a parameter contract among all references nested in the type arguments,
and falls back on the first of them. A reference is judged by how it is shown: a plain reference by
its name, a qualified one by its text. Text that ends in type arguments never looks like a contract,
so a qualified reference with type arguments of its own is passed over, whatever its last identifier
is. Names are taken to be written without escapes. -/
namespace JsxLint

namespace Name
open JsxLint.Text

lemma propsEndings_are_letters :
    ∀ ending ∈ propsEndings, ending.toList ≠ [] ∧ ∀ c ∈ ending.toList, c.isAlpha = true := by
  intro ending hmem
  simp only [propsEndings, List.mem_cons, List.not_mem_nil, or_false] at hmem
  rcases hmem with rfl | rfl | rfl | rfl <;> exact ⟨by decide, List.all_eq_true.mp (by decide)⟩

lemma endsWith_iff_suffix {tail s : String} :
    endsWith tail s = true ↔ tail.toList <:+ s.toList := by
  rw [endsWith_iff]
  constructor
  · rintro ⟨rest, rfl⟩
    rw [String.toList_append]
    exact List.suffix_append _ _
  · rintro ⟨rest, hrest⟩
    refine ⟨String.ofList rest, ?_⟩
    rw [← String.toList_inj, String.toList_append, String.toList_ofList, hrest]

/-- The endings of contracts are words of letters, so the letters before a name and the name itself
have to be written together to make one. -/
lemma isPropsLike_append {before last : String}
    (hbefore : ∀ c ∈ before.toList.getLast?, c.isAlpha = false) :
    isPropsLike (before ++ last) = isPropsLike last := by
  rw [Bool.eq_iff_iff]
  simp only [isPropsLike, List.any_eq_true, endsWith_iff_suffix, String.toList_append]
  constructor
  · rintro ⟨ending, hmem, front, hfront⟩
    refine ⟨ending, hmem, ?_⟩
    rcases List.suffix_or_suffix_of_suffix ⟨front, hfront⟩ (List.suffix_append _ last.toList) with
      hlast | ⟨middle, hmiddle⟩
    · exact hlast
    · have hcut : front ++ middle = before.toList := by
        rw [← hmiddle, ← List.append_assoc] at hfront
        exact List.append_cancel_right hfront
      rcases List.eq_nil_or_concat' middle with rfl | ⟨letters, c, rfl⟩
      · exact ⟨[], hmiddle.symm⟩
      · have hletter : c.isAlpha = true :=
          (propsEndings_are_letters ending hmem).2 c (by rw [← hmiddle]; simp)
        have hnone := hbefore c (by rw [← hcut]; simp)
        rw [hletter] at hnone
        cases hnone
  · rintro ⟨ending, hmem, hlast⟩
    exact ⟨ending, hmem, hlast.trans (List.suffix_append _ _)⟩

lemma isPropsLike_bracket (before : String) : isPropsLike (before ++ ">") = false := by
  simp only [isPropsLike, List.any_eq_false, endsWith_iff_suffix, String.toList_append]
  rintro ending hmem ⟨front, hfront⟩
  obtain ⟨hne, hletters⟩ := propsEndings_are_letters ending hmem
  obtain ⟨letters, c, hending⟩ := (List.eq_nil_or_concat' ending.toList).resolve_left hne
  have hletter := hletters c (by rw [hending]; simp)
  rw [hending, ← List.append_assoc] at hfront
  have hlast : c = '>' := by simpa using congrArg List.getLast? hfront
  rw [hlast] at hletter
  cases hletter

end Name

namespace Node

/-- The name of a type with its last identifier: `FC` for `FC` and for `React.FC`. -/
inductive IsTypeName : Node → String → Prop
  | plain (name : String) (s : Span) (parts : List Node) :
    IsTypeName (mk (.identifier name) s parts) name
  | qualified (name : String) (s s' : Span) (left : Node) (parts : List Node) :
    IsTypeName (mk .qualifiedName s [left, mk (.word name) s' parts]) name

/-- The type reference stands in the source text, which ends there with its last identifier or with
the bracket of its type arguments. No letter stands right before that identifier. -/
inductive WrittenIn (source : String) : Node → Prop
  | bare {s : Span} {name : Node} {last : String} (named : name.IsTypeName last) (before : String)
    (text : Text.slice source s = before ++ last)
    (apart : ∀ c ∈ before.toList.getLast?, c.isAlpha = false) :
    WrittenIn source (mk .typeReference s [name])
  | generic {s s' : Span} {name : Node} {last : String} {types : List Node}
    (named : name.IsTypeName last) (before : String) (text : Text.slice source s = before ++ ">")
    (each : ∀ type ∈ types, type.isTypeArguments = false) :
    WrittenIn source (mk .typeReference s [name, mk .typeArguments s' types])

structure ParsedFrom (source : String) (type : Node) : Prop where
  isType : type.isTypeArguments = false
  written : ∀ site ∈ type.sites, site.node.isTypeReference = true → site.node.WrittenIn source

def lastName? : Node → Option String
  | mk .typeReference _ (mk (.identifier name) _ _ :: _) => some name
  | mk .typeReference _ (mk .qualifiedName _ [_, mk (.word name) _ _] :: _) => some name
  | _ => none

def isPropsReference (reference : Node) : Bool :=
  reference.lastName?.any Name.isPropsLike

/-- The type reference has a qualified name and type arguments of its own, as in `UI.Props<T>`. -/
def isQualifiedGeneric : Node → Bool
  | mk .typeReference _ (mk .qualifiedName _ _ :: rest) => rest.any isTypeArguments
  | _ => false

end Node

def Surroundings.onlyReferences (around : Surroundings) : Bool :=
  around.all fun n => n.isTypeReference || n.isTypeArguments

lemma Surroundings.onlyReferences_cons (n : Node) (around : Surroundings) :
    onlyReferences (n :: around) =
      ((n.isTypeReference || n.isTypeArguments) && around.onlyReferences) :=
  List.all_cons

/-- A type reference stands here below other nodes, all of them type references and lists of type
arguments. -/
def Site.isNestedReference (site : Site) : Bool :=
  site.node.isTypeReference && !site.around.isEmpty && site.around.onlyReferences

def Node.referencesBelow (around : Surroundings) (n : Node) : List Node :=
  ((n.sitesBelow around).filter Site.isNestedReference).map Site.node

/-- The type references nested in the type arguments of a type, through type references only, in
source order. -/
def Node.genericReferences (type : Node) : List Node :=
  type.referencesBelow []

namespace Node
variable {source : String} {type reference : Node}

/-- How a reference is shown looks like a contract if its last identifier does, unless it is
qualified and ends in type arguments. -/
lemma isPropsLike_shownReference (h : reference.WrittenIn source) :
    Name.isPropsLike (reference.shownReference source) =
      (reference.isPropsReference && !reference.isQualifiedGeneric) := by
  cases h with
  | @bare s name last named before text apart =>
    cases named with
    | plain => simp [shownReference, isPropsReference, lastName?, isQualifiedGeneric]
    | qualified _ s s' left parts =>
      have hdotted : Name.isPropsLike (left.dottedName ++ "." ++ last) = Name.isPropsLike last :=
        Name.isPropsLike_append (by simp)
      simp only [shownReference, writtenReference, span_mk, text, isPropsReference, lastName?,
        isQualifiedGeneric, dottedName]
      split
      · simp [Name.isPropsLike_append apart]
      · simp [hdotted]
  | @generic s s' name last types named before text =>
    cases named with
    | plain => simp [shownReference, isPropsReference, lastName?, isQualifiedGeneric]
    | qualified _ s s' left parts =>
      have hne : before ++ ">" ≠ "" := by simp
      simp [shownReference, writtenReference, text, isQualifiedGeneric, isTypeArguments, hne,
        Name.isPropsLike_bracket]

lemma referencesBelow_mk (around : Surroundings) (k : Kind) (s : Span) (parts : List Node) :
    (mk k s parts).referencesBelow around =
      (if Site.isNestedReference ⟨mk k s parts, around⟩ then [mk k s parts] else []) ++
        parts.flatMap (referencesBelow (mk k s parts :: around)) := by
  have hparts : ((sitesBelowAll (mk k s parts :: around) parts).filter
      Site.isNestedReference).map Site.node =
        parts.flatMap (referencesBelow (mk k s parts :: around)) := by
    rw [sitesBelowAll_eq_flatMap, List.filter_flatMap, List.map_flatMap]
    rfl
  rw [referencesBelow, sitesBelow, List.filter_cons, ← hparts]
  split <;> rfl

lemma referencesBelow_eq_nil {around : Surroundings} (h : around.onlyReferences = false)
    (n : Node) : n.referencesBelow around = [] := by
  rw [referencesBelow, List.map_eq_nil_iff, List.filter_eq_nil_iff]
  intro site hsite hnested
  have honly : site.around.onlyReferences = false := by
    rcases n.around_of_mem_sitesBelow around hsite with rfl | ⟨inner, hinner⟩
    · exact h
    · rw [hinner, Surroundings.onlyReferences, List.all_append, ← Surroundings.onlyReferences,
        ← Surroundings.onlyReferences, Surroundings.onlyReferences_cons, h, Bool.and_false,
        Bool.and_false]
  rw [Site.isNestedReference, honly, Bool.and_false] at hnested
  cases hnested

/-- Nothing is found in a node that is neither a type reference nor a list of type arguments. -/
lemma referencesBelow_of_other {n : Node} (hreference : n.isTypeReference = false)
    (hargs : n.isTypeArguments = false) (around : Surroundings) :
    n.referencesBelow around = [] := by
  obtain ⟨k, s, parts⟩ := n
  have hparts : parts.flatMap (referencesBelow (mk k s parts :: around)) = [] := by
    rw [List.flatMap_eq_nil_iff]
    intro part _
    refine referencesBelow_eq_nil ?_ part
    rw [Surroundings.onlyReferences_cons, hreference, hargs]
    rfl
  simp [referencesBelow_mk, Site.isNestedReference, hreference, hparts]

lemma nestedReferences_eq_nil {n : Node} (h : n.isTypeReference = false) :
    n.nestedReferences = [] := by
  unfold nestedReferences
  split
  · cases h
  · rfl

end Node

lemma nestedReferencesAll_eq_flatMap (types : List Node) :
    nestedReferencesAll types = types.flatMap fun type =>
      (if type.isTypeReference then [type] else []) ++ type.nestedReferences := by
  induction types with
  | nil => rw [nestedReferencesAll, List.flatMap_nil]
  | cons type types ih => rw [nestedReferencesAll, ih, List.flatMap_cons]

namespace Node
variable {source : String} {type reference : Node}

lemma IsTypeName.not_type {name : Node} {last : String} (h : name.IsTypeName last) :
    name.isTypeReference = false ∧ name.isTypeArguments = false := by
  cases h <;> exact ⟨rfl, rfl⟩

/-- The sites of a type below type references and their type arguments give the type itself, if it
is a reference, and the references in its own type arguments. -/
def YieldsReferences (source : String) (n : Node) : Prop :=
  ∀ around : Surroundings, around.onlyReferences = true →
    (∀ site ∈ n.sitesBelow around, site.node.isTypeReference = true →
      site.node.WrittenIn source) →
    n.isTypeArguments = false →
    n.referencesBelow around =
      (if n.isTypeReference && !around.isEmpty then [n] else []) ++ n.nestedReferences

lemma referencesBelow_typeArguments {around : Surroundings} {s : Span} {types : List Node}
    (honly : around.onlyReferences = true)
    (hwritten : ∀ site ∈ (mk .typeArguments s types).sitesBelow around,
      site.node.isTypeReference = true → site.node.WrittenIn source)
    (each : ∀ type ∈ types, type.isTypeArguments = false)
    (hyields : ∀ type ∈ types, type.YieldsReferences source) :
    (mk .typeArguments s types).referencesBelow around = nestedReferencesAll types := by
  rw [referencesBelow_mk, nestedReferencesAll_eq_flatMap]
  refine List.flatMap_congr fun type htype => ?_
  have hbelow : ∀ site ∈ type.sitesBelow (mk .typeArguments s types :: around),
      site.node.isTypeReference = true → site.node.WrittenIn source :=
    fun site hsite => hwritten site (mem_sitesBelow_of_child htype hsite)
  have honly' : Surroundings.onlyReferences (mk .typeArguments s types :: around) = true := by
    rw [Surroundings.onlyReferences_cons, honly]
    rfl
  rw [hyields type htype _ honly' hbelow (each type htype)]
  simp

/-- Type arguments stand between a reference and the references in it, so the induction carries the
parts of a node along with it. -/
theorem yieldsReferences (source : String) (n : Node) :
    n.YieldsReferences source ∧ ∀ part ∈ n.children, part.YieldsReferences source := by
  induction n using Node.induction with
  | node k s parts ih =>
    refine ⟨fun around honly hwritten hargs => ?_, fun part hpart => (ih part hpart).1⟩
    cases hreference : (mk k s parts).isTypeReference with
    | false =>
      simp [referencesBelow_of_other hreference hargs, nestedReferences_eq_nil hreference]
    | true =>
      have hself : (if Site.isNestedReference ⟨mk k s parts, around⟩ then [mk k s parts] else []) =
          if !around.isEmpty then [mk k s parts] else [] := by
        simp [Site.isNestedReference, hreference, honly]
      rw [referencesBelow_mk, hself, Bool.true_and]
      congr 1
      cases hwritten _ (self_mem_sitesBelow _ around) hreference with
      | bare named =>
        obtain ⟨hname, hname'⟩ := named.not_type
        simp [referencesBelow_of_other hname hname', nestedReferences]
      | @generic _ s' name _ types named _ _ each =>
        obtain ⟨hname, hname'⟩ := named.not_type
        have hmem : mk .typeArguments s' types ∈ [name, mk .typeArguments s' types] := by simp
        have honly' : Surroundings.onlyReferences
            (mk .typeReference s [name, mk .typeArguments s' types] :: around) = true := by
          rw [Surroundings.onlyReferences_cons, honly, hreference]
          rfl
        have harguments := referencesBelow_typeArguments honly'
          (fun site hsite => hwritten site (mem_sitesBelow_of_child hmem hsite)) each (ih _ hmem).2
        simp [referencesBelow_of_other hname hname', harguments, nestedReferences]

theorem genericReferences_eq (h : type.ParsedFrom source) :
    type.genericReferences = type.nestedReferences := by
  have hfound := (yieldsReferences source type).1 [] rfl h.written h.isType
  simpa [genericReferences] using hfound

lemma ParsedFrom.writtenIn_of_mem (h : type.ParsedFrom source)
    (hmem : reference ∈ type.genericReferences) : reference.WrittenIn source := by
  obtain ⟨site, hsite, rfl⟩ := List.mem_map.mp hmem
  obtain ⟨hsite, hnested⟩ := List.mem_filter.mp hsite
  simp only [Site.isNestedReference, Bool.and_eq_true] at hnested
  exact h.written site hsite hnested.1.1

end Node

namespace PropsType
variable {source : String} {type : Node}

/-- The reference that is found among the nested ones: the first that is shown like a contract, else
the first of all. -/
def chosen? (source : String) (type : Node) : Option Node :=
  (type.nestedReferences.find? fun r => Name.isPropsLike (r.shownReference source)).or
    type.nestedReferences.head?

lemma ofAscription?_eq_map (source : String) (type : Node) :
    ofAscription? source type =
      (chosen? source type).map fun r => ⟨r.shownReference source, r.span, .ascribed⟩ := by
  simp only [ofAscription?, chosen?, List.find?_map, List.head?_map, ← Option.map_or,
    Function.comp_def]
  cases (type.nestedReferences.find? _).or type.nestedReferences.head? <;> rfl

/-- The type of a variable gives the first nested reference that looks like a contract and is not of
the form `UI.Props<T>`, else the first of all, else nothing. -/
theorem ofAscription?_passes_over_qualifiedGeneric (h : type.ParsedFrom source) :
    let references := type.genericReferences
    let found? := (ofAscription? source type).map PropsType.span
    (ofAscription? source type = none ↔ references = []) ∧
    found? = ((references.find? fun r => r.isPropsReference && !r.isQualifiedGeneric).or
      references.head?).map Node.span ∧
    ((∀ r ∈ references, r.isPropsReference = true → r.isQualifiedGeneric = false) →
      found? = ((references.find? Node.isPropsReference).or references.head?).map Node.span) := by
  intro references found?
  have hchosen : chosen? source type =
      (references.find? fun r => r.isPropsReference && !r.isQualifiedGeneric).or
        references.head? := by
    rw [chosen?, ← Node.genericReferences_eq h]
    congr 1
    exact List.find?_congr fun r hr => Node.isPropsLike_shownReference (h.writtenIn_of_mem hr)
  have hfound : found? = (chosen? source type).map Node.span := by
    change (ofAscription? source type).map PropsType.span = _
    rw [ofAscription?_eq_map, Option.map_map]
    rfl
  refine ⟨?_, hchosen ▸ hfound, fun hforms => ?_⟩
  · rw [ofAscription?_eq_map, Option.map_eq_none_iff, hchosen, Option.or_eq_none_iff,
      List.head?_eq_none_iff]
    constructor
    · exact And.right
    · intro hnil
      exact ⟨by rw [hnil]; rfl, hnil⟩
  · rw [hfound, hchosen]
    congr 2
    refine List.find?_congr fun r hr => ?_
    cases hprops : r.isPropsReference with
    | false => rfl
    | true => rw [hforms r hr hprops]; rfl

/-- In the type of `const Menu: FC<Themed<UI.MenuProps<Z>>> = () => null;` the reference to
`UI.MenuProps` is passed over for `Themed`. -/
theorem ofAscription?_passes_over_qualifiedGeneric_themed :
    let source := "const Menu: FC<Themed<UI.MenuProps<Z>>> = () => null;"
    let name := fun text span => Node.mk (.identifier text) span []
    let inner := Node.mk .typeReference ⟨35, 36⟩ [name "Z" ⟨35, 36⟩]
    let qualified := Node.mk .qualifiedName ⟨22, 34⟩
      [name "UI" ⟨22, 24⟩, .mk (.word "MenuProps") ⟨25, 34⟩ []]
    let menuProps := Node.mk .typeReference ⟨22, 37⟩
      [qualified, .mk .typeArguments ⟨34, 37⟩ [inner]]
    let themed := Node.mk .typeReference ⟨15, 38⟩
      [name "Themed" ⟨15, 21⟩, .mk .typeArguments ⟨21, 38⟩ [menuProps]]
    let type := Node.mk .typeReference ⟨12, 39⟩
      [name "FC" ⟨12, 14⟩, .mk .typeArguments ⟨14, 39⟩ [themed]]
    type.ParsedFrom source ∧ type.genericReferences = [themed, menuProps, inner] ∧
      menuProps.isPropsReference = true ∧
      (ofAscription? source type).map PropsType.span = some ⟨15, 38⟩ := by
  intro source name inner qualified menuProps themed type
  have hinner : inner.WrittenIn source := .bare (.plain _ _ _) "" (by decide) (by simp)
  have hmenuProps : menuProps.WrittenIn source :=
    .generic (.qualified _ _ _ _ _) "UI.MenuProps<Z" (by decide) (by decide)
  have hthemed : themed.WrittenIn source :=
    .generic (.plain _ _ _) "Themed<UI.MenuProps<Z>" (by decide) (by decide)
  have htype : type.WrittenIn source :=
    .generic (.plain _ _ _) "FC<Themed<UI.MenuProps<Z>>" (by decide) (by decide)
  have hparsed : type.ParsedFrom source := by
    refine ⟨rfl, fun site hsite hreference => ?_⟩
    have hreferences : (type.sites.filter (·.node.isTypeReference)).map Site.node =
        [type, themed, menuProps, inner] := rfl
    have hmem : site.node ∈ (type.sites.filter (·.node.isTypeReference)).map Site.node :=
      List.mem_map_of_mem (List.mem_filter.mpr ⟨hsite, hreference⟩)
    simp only [hreferences, List.mem_cons, List.not_mem_nil, or_false] at hmem
    rcases hmem with h | h | h | h <;> rw [h] <;> assumption
  refine ⟨hparsed, rfl, by decide, ?_⟩
  exact (ofAscription?_passes_over_qualifiedGeneric hparsed).2.1.trans (by decide)

end PropsType

end JsxLint
