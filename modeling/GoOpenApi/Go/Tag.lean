import GoOpenApi.Dict
import GoOpenApi.Text.Split

/-!
Struct tags: items `key:"value,value"` with blanks between them. Reading stops at the first
item of another shape and keeps what stands before it.
-/

namespace GoOpenApi.Tag

def item? (cs : List Char) : Option ((String × List String) × List Char) := do
  let (key, after) ← Text.cutList (· == ':') cs
  match after with
  | '"' :: body =>
    let (value, rest) ← Text.cutList (· == '"') body
    let values := (Text.splitList (· == ',') value).map fun v ↦ String.ofList (Text.trimList v)
    return ((String.ofList (Text.trimList key), values), rest)
  | _ => none

def items : Nat → List Char → List (String × List String)
  | 0, _ => []
  | n + 1, cs =>
    match item? cs with
    | some (item, rest) => item :: items n (rest.dropWhile Text.isBlank)
    | none => []

/-- The values under each key; the last item of a key counts. -/
def parseList (cs : List Char) : Dict (List String) :=
  let cs := Text.trimList cs
  Dict.ofList (items cs.length cs)

def parse (s : String) : Dict (List String) := parseList s.toList

end GoOpenApi.Tag
