import JsxLint.Component.Function
import JsxLint.Name.Declaration
import JsxLint.Tree.Call

/-! What the ancestors of a node say about it: the calls it is an operand of, the function and
the type it is declared in, and the scopes it can see. -/
namespace JsxLint.Surroundings

def insideCallNamed (names : List String) (around : Surroundings) : Bool :=
  around.any fun
    | .mk .call _ (callee :: _) => callee.memberName?.any names.contains
    | _ => false

def insideConstruct (around : Surroundings) : Bool :=
  around.any fun
    | .mk .construct _ _ => true
    | _ => false

/-- The kind of the variable that the function at `span` is assigned to. The search ends at the
nearest declarator, and at any function or function body before it. -/
def assignedKind? (span : Span) : Surroundings → Option Name.DeclarationKind
  | [] => none
  | n :: outer =>
    match n.kind with
    | .declarator => do
      let declarator ← n.declarator?
      let function ← (← declarator.init?).functionIn?
      if function.span = span then return .ofName (← declarator.ident?).name else none
    | .function _ | .arrow | .functionBody | .program => none
    | _ => assignedKind? span outer

/-- The kind of the nearest function around, named by itself or by the variable it is assigned
to. -/
def functionKind? : Surroundings → Option Name.DeclarationKind
  | [] => none
  | n :: outer =>
    match n.kind with
    | .function _ =>
      match n.functionIdent? with
      | some ident => some (.ofName ident.name)
      | none => assignedKind? n.span outer
    | .arrow => assignedKind? n.span outer
    | _ => functionKind? outer

def typeName? (around : Surroundings) : Option String :=
  around.findSome? fun
    | .mk .interface _ (.mk (.binding name) _ _ :: _) => some name
    | .mk .typeAlias _ (.mk (.binding name) _ _ :: _) => some name
    | _ => none

/-- The node owns the variables declared in it. -/
def isScope (n : Node) : Bool :=
  match n.kind with
  | .function _ | .arrow | .program => true
  | _ => false

/-- The functions around and the program, by span, the innermost first. -/
def scopes (around : Surroundings) : List Span :=
  (around.filter isScope).map Node.span

def scope (around : Surroundings) : Span :=
  around.scopes.headD ⟨0, 0⟩

/-- A name introduced here belongs to a variable or a parameter, and not to a function or a
class. -/
def bindsVariable : Surroundings → Bool
  | [] => false
  | n :: outer =>
    match n.kind with
    | .declarator | .parameter | .catchParameter => true
    | .function _ | .arrow | .classLike | .program => false
    | _ => bindsVariable outer

end JsxLint.Surroundings
