/-! JSON values as far as a configuration can tell them apart. A number only matters by being
one, so its value is not kept. -/
namespace JsxLint

/-- A JSON value. The entries of an object are in ascending order of their keys, each key
once. -/
inductive Json
  | null
  | boolean (value : Bool)
  | number
  | text (value : String)
  | array (items : List Json)
  | object (entries : List (String × Json))
  deriving Repr

namespace Json

abbrev Entries := List (String × Json)

/-- Enter a value under a key, in the place of an earlier one. -/
def Entries.insert (key : String) (value : Json) : Entries → Entries
  | [] => [(key, value)]
  | (k, v) :: rest =>
    if key < k then (key, value) :: (k, v) :: rest
    else if key = k then (key, value) :: rest
    else (k, v) :: Entries.insert key value rest

def Entries.get? (key : String) (entries : Entries) : Option Json :=
  entries.lookup key

def text? : Json → Option String
  | text value => some value
  | _ => none

def texts? : Json → Option (List String)
  | array items => items.mapM text?
  | _ => none

end Json

end JsxLint
