import JsxLint.Proofs.DerivedWalk

/-! Names that exist only in types: parameters of function types, of constructor types and of
method, call and construct signatures. `blank` takes these names out of a tree and leaves all else
in its place. Nothing that decides what is a gate, what is a condition and which scopes are around
looks at such a name. Functions, classes and declarators stand for code again, also inside a
type. -/
namespace JsxLint

/-- Names below a node of this kind exist only in types; `typed` says so of the node itself. -/
@[simp] def Kind.namesTypes (typed : Bool) : Kind → Bool
  | .functionType | .methodSignature | .bareSignature => true
  | .other label => label = "TSConstructorType" || typed
  | .program | .classLike | .arrow | .function _ | .declarator => false
  | _ => typed

/-- The kind, without the name if it introduces one in a type. -/
@[simp] def Kind.blank (typed : Bool) : Kind → Kind
  | .binding name => .binding (if typed then "" else name)
  | k => k

mutual

/-- The tree without the names that it introduces in types. -/
def Node.blank (typed : Bool) : Node → Node
  | .mk k s cs => .mk (k.blank typed) s (blankAll (k.namesTypes typed) cs)

def blankAll (typed : Bool) : List Node → List Node
  | [] => []
  | n :: ns => n.blank typed :: blankAll typed ns

end

@[simp] lemma Node.blank_mk (typed : Bool) (k : Kind) (s : Span) (cs : List Node) :
    (Node.mk k s cs).blank typed = .mk (k.blank typed) s (blankAll (k.namesTypes typed) cs) := by
  rw [Node.blank]

@[simp] lemma blankAll_nil (typed : Bool) : blankAll typed [] = [] := by
  rw [blankAll]

@[simp] lemma blankAll_cons (typed : Bool) (n : Node) (ns : List Node) :
    blankAll typed (n :: ns) = n.blank typed :: blankAll typed ns := by
  rw [blankAll]

lemma blankAll_eq_map (typed : Bool) (ns : List Node) :
    blankAll typed ns = ns.map (Node.blank typed) := by
  induction ns with
  | nil => rw [blankAll_nil, List.map_nil]
  | cons n ns ih => rw [blankAll_cons, List.map_cons, ih]

namespace Surroundings

def inSignature : Surroundings → Bool
  | [] => false
  | n :: outer => n.kind.namesTypes (inSignature outer)

def blank : Surroundings → Surroundings
  | [] => []
  | n :: outer => n.blank (inSignature outer) :: blank outer

end Surroundings

def Site.blank (site : Site) : Site :=
  ⟨site.node.blank site.around.inSignature, site.around.blank⟩

mutual

/-- Taking out names keeps every node in its place. -/
theorem Node.sitesBelow_blank (around : Surroundings) : ∀ n : Node,
    (n.blank around.inSignature).sitesBelow around.blank = (n.sitesBelow around).map Site.blank
  | .mk k s cs => by
    have hbelow := sitesBelowAll_blank (.mk k s cs :: around) cs
    rw [Node.blank_mk, Node.sitesBelow, Node.sitesBelow, List.map_cons, ← hbelow]
    rfl

theorem sitesBelowAll_blank (around : Surroundings) : ∀ ns : List Node,
    sitesBelowAll around.blank (blankAll around.inSignature ns) =
      (sitesBelowAll around ns).map Site.blank
  | [] => by
    rw [blankAll_nil, sitesBelowAll, sitesBelowAll, List.map_nil]
  | n :: ns => by
    rw [blankAll_cons, sitesBelowAll, sitesBelowAll, List.map_append, n.sitesBelow_blank around,
      sitesBelowAll_blank around ns]

end

theorem Node.sites_blank (root : Node) : (root.blank false).sites = root.sites.map Site.blank :=
  root.sitesBelow_blank []

namespace Node
variable (typed : Bool)

lemma gatingNames_blank (n : Node) : (n.blank typed).gatingNames = n.gatingNames := by
  fun_induction gatingNames n with
  | case1 form s e rest ih => simp [gatingNames, ih]
  | case2 s type e rest ih => simp [gatingNames, ih]
  | case3 name s parts => rfl
  | case4 s left right => rfl
  | case5 s left right op hop ihl ihr => simp [gatingNames, hop, ihl, ihr]
  | case6 s operand rest ih => simp [gatingNames, ih]
  | case7 op s operand rest hop => simp [gatingNames, hop]
  | case8 n hwrapper hassertion hidentifier hlogical hunary =>
    obtain ⟨k, s, parts⟩ := n
    cases k <;> try rfl
    case wrapper =>
      rcases parts with _ | ⟨e, rest⟩ <;> try rfl
      exact (hwrapper _ _ _ _ rfl).elim
    case typeAssertion =>
      rcases parts with _ | ⟨type, _ | ⟨e, rest⟩⟩ <;> try rfl
      exact (hassertion _ _ _ _ rfl).elim
    case identifier => exact (hidentifier _ _ _ rfl).elim
    case logical =>
      rcases parts with _ | ⟨left, _ | ⟨right, _ | ⟨next, rest⟩⟩⟩ <;> try rfl
      exact (hlogical _ _ _ _ rfl).elim
    case unary =>
      rcases parts with _ | ⟨operand, rest⟩ <;> try rfl
      exact (hunary _ _ _ _ rfl).elim

lemma isLikelyBoolean_blank (n : Node) : (n.blank typed).isLikelyBoolean = n.isLikelyBoolean := by
  fun_induction isLikelyBoolean n with
  | case1 form s e rest ih => simp [isLikelyBoolean, ih]
  | case2 s type e rest ih => simp [isLikelyBoolean, ih]
  | case3 s parts => rfl
  | case4 name s parts => rfl
  | case5 op s parts => rfl
  | case6 op s parts => rfl
  | case7 op s left right ihl ihr => simp [isLikelyBoolean, ihl, ihr]
  | case8 s test consequent alternate ihc iha => simp [isLikelyBoolean, ihc, iha]
  | case9 n hwrapper hassertion hliteral hidentifier hunary hbinary hlogical hconditional =>
    obtain ⟨k, s, parts⟩ := n
    cases k <;> try rfl
    case wrapper =>
      rcases parts with _ | ⟨e, rest⟩ <;> try rfl
      exact (hwrapper _ _ _ _ rfl).elim
    case typeAssertion =>
      rcases parts with _ | ⟨type, _ | ⟨e, rest⟩⟩ <;> try rfl
      exact (hassertion _ _ _ _ rfl).elim
    case booleanLiteral => exact (hliteral _ _ rfl).elim
    case identifier => exact (hidentifier _ _ _ rfl).elim
    case unary => exact (hunary _ _ _ rfl).elim
    case binary => exact (hbinary _ _ _ rfl).elim
    case logical =>
      rcases parts with _ | ⟨left, _ | ⟨right, _ | ⟨next, rest⟩⟩⟩ <;> try rfl
      exact (hlogical _ _ _ _ rfl).elim
    case conditional =>
      rcases parts with _ | ⟨test, _ | ⟨consequent, _ | ⟨alternate, _ | ⟨next, rest⟩⟩⟩⟩ <;> try rfl
      exact (hconditional _ _ _ _ rfl).elim

lemma peel_blank (n : Node) : (n.blank typed).peel = n.peel.blank typed := by
  fun_induction peel n with
  | case1 form s e rest ih => simpa using ih
  | case2 s type e rest ih => simpa using ih
  | case3 n hwrapper hassertion =>
    obtain ⟨k, s, parts⟩ := n
    cases k <;> try rfl
    case wrapper =>
      rcases parts with _ | ⟨e, rest⟩ <;> try rfl
      exact (hwrapper _ _ _ _ rfl).elim
    case typeAssertion =>
      rcases parts with _ | ⟨type, _ | ⟨e, rest⟩⟩ <;> try rfl
      exact (hassertion _ _ _ _ rfl).elim

lemma isTemplateText_blank (n : Node) : (n.blank typed).isTemplateText = n.isTemplateText := by
  obtain ⟨k, s, parts⟩ := n
  cases k <;> rfl

lemma isPlainString_blank (n : Node) : (n.blank typed).isPlainString = n.isPlainString := by
  rw [isPlainString, isPlainString, peel_blank]
  obtain ⟨k, s, parts⟩ := n.peel
  cases k <;> try rfl
  case template =>
    simp [blankAll_eq_map, Function.comp_def, isTemplateText_blank]

lemma isStringFallback_blank (n : Node) :
    (n.blank typed).isStringFallback = n.isStringFallback := by
  rw [isStringFallback, isStringFallback, peel_blank]
  obtain ⟨k, s, parts⟩ := n.peel
  cases k <;> try rfl
  case logical op =>
    cases op <;> try rfl
    rcases parts with _ | ⟨left, _ | ⟨right, _ | ⟨next, rest⟩⟩⟩ <;> try rfl
    simp [isPlainString_blank]

lemma isDerived_blank (n : Node) : (n.blank typed).isDerived = n.isDerived := by
  rw [isDerived, isDerived, peel_blank, isStringFallback_blank]
  obtain ⟨k, s, parts⟩ := n.peel
  cases k <;> try rfl
  case logical =>
    rcases parts with _ | ⟨left, _ | ⟨right, _ | ⟨next, rest⟩⟩⟩ <;> try rfl
    simp [isLikelyBoolean_blank]
  case conditional =>
    rcases parts with _ | ⟨test, _ | ⟨consequent, _ | ⟨alternate, _ | ⟨next, rest⟩⟩⟩⟩ <;> try rfl
    simp [isLikelyBoolean_blank]

lemma isCombiningLogical_blank (n : Node) :
    (n.blank typed).isCombiningLogical = n.isCombiningLogical := by
  rw [isCombiningLogical, isCombiningLogical, peel_blank, isStringFallback_blank]
  obtain ⟨k, s, parts⟩ := n.peel
  cases k <;> rfl

lemma isDerivedCandidate_blank (name : String) (n : Node) :
    (n.blank typed).isDerivedCandidate name = n.isDerivedCandidate name := by
  rw [isDerivedCandidate, isDerivedCandidate, isDerived_blank, isCombiningLogical_blank]

lemma memberTagName_blank (n : Node) : (n.blank typed).memberTagName = n.memberTagName := by
  fun_induction memberTagName n with
  | case1 name s parts => rfl
  | case2 s object name s' parts ih => simp [memberTagName, ih]
  | case3 n hidentifier hmember =>
    obtain ⟨k, s, parts⟩ := n
    cases k <;> try rfl
    case identifier => exact (hidentifier _ _ _ rfl).elim
    case jsxMember =>
      rcases parts with _ | ⟨object, _ | ⟨⟨k, s', parts⟩, _ | ⟨next, rest⟩⟩⟩ <;> try rfl
      · cases k <;> try rfl
        exact (hmember _ _ _ _ _ rfl).elim
      · simp [memberTagName]

lemma tagName?_blank (n : Node) : (n.blank typed).tagName? = n.tagName? := by
  obtain ⟨k, s, parts⟩ := n
  cases k <;> try rfl
  case namespacedName =>
    rcases parts with _ | ⟨⟨k, _, _⟩, _ | ⟨⟨k', _, _⟩, _ | ⟨next, rest⟩⟩⟩
    · rfl
    · simp [tagName?]
    · cases k <;> try rfl
      cases k' <;> rfl
    · simp [tagName?]
  case jsxMember =>
    exact congrArg some (memberTagName_blank typed (.mk .jsxMember s parts))

lemma openingName?_blank (n : Node) : (n.blank typed).openingName? = n.openingName? := by
  obtain ⟨k, s, parts⟩ := n
  cases k <;> try rfl
  case opening =>
    cases parts with
    | nil => rfl
    | cons name rest => simp [openingName?, tagName?_blank]

lemma elementName?_blank (n : Node) : (n.blank typed).elementName? = n.elementName? := by
  obtain ⟨k, s, parts⟩ := n
  cases k <;> try rfl
  case element =>
    cases parts with
    | nil => rfl
    | cons opening rest => simp [elementName?, openingName?_blank]

lemma attributeName?_blank (n : Node) : (n.blank typed).attributeName? = n.attributeName? := by
  obtain ⟨k, s, parts⟩ := n
  cases k <;> try rfl
  case jsxAttribute =>
    cases parts with
    | nil => rfl
    | cons name rest => simp [attributeName?, tagName?_blank]

lemma containedExpression?_blank (n : Node) :
    (n.blank typed).containedExpression? = n.containedExpression?.map (Node.blank typed) := by
  obtain ⟨k, s, parts⟩ := n
  cases k <;> try rfl
  case container =>
    rcases parts with _ | ⟨⟨k, _, _⟩, rest⟩
    · rfl
    · cases k <;> rfl

lemma isAscription_blank (n : Node) : (n.blank typed).isAscription = n.isAscription := by
  obtain ⟨k, s, parts⟩ := n
  cases k <;> rfl

end Node

mutual

lemma Node.hasKind_blank {p : Kind → Bool} (hp : ∀ typed k, p (k.blank typed) = p k)
    (typed : Bool) : ∀ n : Node, (n.blank typed).hasKind p = n.hasKind p
  | .mk k s cs => by
    rw [Node.blank_mk, Node.hasKind, Node.hasKind, hp, anyHasKind_blank hp _ cs]

lemma anyHasKind_blank {p : Kind → Bool} (hp : ∀ typed k, p (k.blank typed) = p k)
    (typed : Bool) : ∀ ns : List Node, anyHasKind p (blankAll typed ns) = anyHasKind p ns
  | [] => by rw [blankAll_nil]
  | n :: ns => by
    rw [blankAll_cons, anyHasKind, anyHasKind, n.hasKind_blank hp typed,
      anyHasKind_blank hp typed ns]

end

lemma Node.containsJsx_blank (typed : Bool) (n : Node) :
    (n.blank typed).containsJsx = n.containsJsx :=
  n.hasKind_blank (fun _ k => by cases k <;> rfl) typed

lemma Node.boundIdent?_blank (n : Node) : (n.blank false).boundIdent? = n.boundIdent? := by
  fun_induction boundIdent? n with
  | case1 name s parts => rfl
  | case2 s left rest ih => simpa [boundIdent?] using ih
  | case3 n hname hdefault =>
    obtain ⟨k, s, parts⟩ := n
    cases k <;> try rfl
    case binding => exact (hname _ _ _ rfl).elim
    case defaultPattern =>
      cases parts with
      | nil => rfl
      | cons left rest => exact (hdefault _ _ _ rfl).elim

namespace Surroundings

lemma isScope_blank (typed : Bool) (n : Node) : isScope (n.blank typed) = isScope n := by
  obtain ⟨k, s, parts⟩ := n
  cases k <;> rfl

lemma span_blank (typed : Bool) (n : Node) : (n.blank typed).span = n.span := by
  cases n
  rw [Node.blank_mk]
  rfl

lemma scopes_blank (around : Surroundings) : around.blank.scopes = around.scopes := by
  induction around with
  | nil => rfl
  | cons n outer ih =>
    rw [scopes, scopes] at ih ⊢
    rw [blank, List.filter_cons, List.filter_cons, isScope_blank]
    split
    · rw [List.map_cons, List.map_cons, span_blank, ih]
    · exact ih

lemma bindsVariable_blank (around : Surroundings) :
    around.blank.bindsVariable = around.bindsVariable := by
  induction around with
  | nil => rfl
  | cons n outer ih =>
    obtain ⟨k, s, parts⟩ := n
    cases k <;> first | rfl | exact ih

lemma findSome?_openingName?_blank (around : Surroundings) :
    around.blank.findSome? Node.openingName? = around.findSome? Node.openingName? := by
  induction around with
  | nil => rfl
  | cons n outer ih =>
    rw [blank, List.findSome?_cons, List.findSome?_cons, Node.openingName?_blank, ih]

end Surroundings

lemma Placement.of?_blank (around : Surroundings) :
    Placement.of? around.blank = Placement.of? around := by
  induction around with
  | nil => rfl
  | cons n outer ih =>
    obtain ⟨k, s, parts⟩ := n
    cases k <;> try exact ih
    case jsxAttribute printed =>
      have hname := Node.attributeName?_blank (Surroundings.inSignature outer)
        (.mk (.jsxAttribute printed) s parts)
      rw [Surroundings.blank, of?, of?, hname, Surroundings.findSome?_openingName?_blank]
      rfl
    case element =>
      have hname := Node.elementName?_blank (Surroundings.inSignature outer) (.mk .element s parts)
      rw [Surroundings.blank, of?, of?, hname]
      rfl
    case fragment => rfl

namespace Site
open DerivedConditionalNaming

lemma gateNames_blank (site : Site) : gateNames site.blank = gateNames site := by
  obtain ⟨⟨k, s, parts⟩, around⟩ := site
  cases k <;> try rfl
  case logical op =>
    cases op <;> try rfl
    rcases parts with _ | ⟨left, _ | ⟨right, _ | ⟨next, rest⟩⟩⟩ <;> try rfl
    simp only [gateNames, blank, gate?, Node.blank_mk, Kind.blank, blankAll_cons, blankAll_nil,
      Node.containsJsx_blank]
    split
    · exact Node.gatingNames_blank _ left
    · rfl
  case conditional =>
    rcases parts with _ | ⟨test, _ | ⟨consequent, _ | ⟨alternate, _ | ⟨next, rest⟩⟩⟩⟩ <;> try rfl
    simp only [gateNames, blank, gate?, Node.blank_mk, Kind.blank, blankAll_cons, blankAll_nil,
      Node.containsJsx_blank]
    split
    · exact Node.gatingNames_blank _ test
    · rfl
  case container =>
    have hparts := Node.containedExpression?_blank around.inSignature (.mk .container s parts)
    rw [Node.blank_mk] at hparts
    simp only [gateNames, blank, gate?, Node.blank_mk, Kind.blank, Placement.of?_blank] at hparts ⊢
    split
    · rw [hparts, Option.map_map]
      simp only [Function.comp_def, Node.gatingNames_blank]
    · rfl

lemma condition?_blank (site : Site) : site.blank.condition? = site.condition? := by
  obtain ⟨⟨k, s, parts⟩, around⟩ := site
  cases k <;> try rfl
  case declarator =>
    cases parts with
    | nil => rfl
    | cons pattern rest =>
      have hinit : (blankAll false rest).find? (!·.isAscription) =
          (rest.find? (!·.isAscription)).map (Node.blank false) := by
        rw [blankAll_eq_map, List.find?_map]
        simp only [Function.comp_def, Node.isAscription_blank]
      simp only [condition?, blank, Node.blank_mk, Kind.blank, Kind.namesTypes, blankAll_cons,
        Node.declarator?, Option.bind_some, candidate?, Declarator.ident?, Node.boundIdent?_blank,
        hinit]
      cases rest.find? (!·.isAscription) with
      | none => rfl
      | some init =>
        simp only [Option.map_some, Option.bind_eq_bind, Option.bind_some,
          Node.isDerivedCandidate_blank]

/-- Only the name of a variable can change. -/
lemma introduced?_blank (site : Site) :
    site.blank.introduced?.map Ident.span = site.introduced?.map Ident.span := by
  obtain ⟨⟨k, s, parts⟩, around⟩ := site
  cases k <;> try rfl
  case binding name =>
    simp only [introduced?, blank, Node.blank_mk, Kind.blank, Node.kind_mk, Node.span_mk,
      Surroundings.bindsVariable_blank]
    split
    · rfl
    · rfl

end Site

end JsxLint
