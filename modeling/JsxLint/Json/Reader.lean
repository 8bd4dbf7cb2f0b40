import JsxLint.Json.Token

/-! Reading JSON values from tokens with an explicit stack of open containers. At most 127
containers may be open at once. Of entries with the same key the last one counts. -/
namespace JsxLint.Json

/-- An open container, waiting for a value. -/
inductive Frame
  | array (items : List Json)
  | object (entries : Entries) (key : String)
  deriving Repr

/-- How far a text has been read; `outer` holds the open containers, the innermost first. -/
inductive State
  | value (outer : List Frame)
  /-- An array was opened: a value or its end must follow. -/
  | arrayStart (outer : List Frame)
  /-- An object was opened: a key or its end must follow. -/
  | objectStart (outer : List Frame)
  | key (entries : Entries) (outer : List Frame)
  | colon (entries : Entries) (key : String) (outer : List Frame)
  /-- A value is complete; its container goes on or ends. -/
  | complete (value : Json) (outer : List Frame)
  deriving Repr

def maxDepth : Nat := 127

def State.begin? (outer : List Frame) : Token → Option State
  | .scalar v => some (.complete v outer)
  | .leftBracket => if outer.length < maxDepth then some (.arrayStart outer) else none
  | .leftBrace => if outer.length < maxDepth then some (.objectStart outer) else none
  | _ => none

def State.follow? (v : Json) : List Frame → Token → Option State
  | .array items :: outer, .comma => some (.value (.array (items ++ [v]) :: outer))
  | .array items :: outer, .rightBracket => some (.complete (.array (items ++ [v])) outer)
  | .object entries k :: outer, .comma => some (.key (entries.insert k v) outer)
  | .object entries k :: outer, .rightBrace =>
    some (.complete (.object (entries.insert k v)) outer)
  | _, _ => none

def State.step? : State → Token → Option State
  | .value outer, token => begin? outer token
  | .arrayStart outer, .rightBracket => some (.complete (.array []) outer)
  | .arrayStart outer, token => begin? (.array [] :: outer) token
  | .objectStart outer, .rightBrace => some (.complete (.object []) outer)
  | .objectStart outer, .scalar (.text k) => some (.colon [] k outer)
  | .key entries outer, .scalar (.text k) => some (.colon entries k outer)
  | .colon entries k outer, .colon => some (.value (.object entries k :: outer))
  | .complete v outer, token => follow? v outer token
  | _, _ => none

def read? (cs : List Char) : Option Json := do
  match ← (← tokens? cs).foldlM State.step? (.value []) with
  | .complete value [] => return value
  | _ => none

inductive ObjectError
  | malformed
  /-- The text begins with a value of another kind. -/
  | notAnObject
  deriving DecidableEq, Repr

/-- The object that a whole text spells. A text that does not begin with a brace is judged by
its first token alone. -/
def readObject (text : String) : Except ObjectError Entries :=
  match text.toList.dropWhile isSpace with
  | '{' :: rest =>
    match read? ('{' :: rest) with
    | some (.object entries) => .ok entries
    | _ => .error .malformed
  | start =>
    match next? start with
    | some (.scalar _, _) => .error .notAnObject
    | some (.leftBracket, _) => .error .notAnObject
    | _ => .error .malformed

end JsxLint.Json
