import GoOpenApi.Go.Type
import GoOpenApi.Text.Case

/-!
How a struct field appears in JSON: the name in its tag, else its own name when it is exported.
The members of an embedded field without a name in its tag appear in the enclosing struct.
-/

namespace GoOpenApi

/-- A name is exported when it begins with an upper-case letter. -/
def isExported (name : String) : Bool :=
  match name.toList with
  | c :: _ => Text.isUpper c
  | [] => false

namespace Field

def jsonTag (f : Field) : Option (List String) := Dict.find? "json" f.tags

/-- The name in the tag, if it is not empty. -/
def jsonTagName (f : Field) : Option String :=
  (f.jsonTag.bind (·.head?)).filter (!·.isEmpty)

/-- The name in JSON. There is none for a field that is tagged `-`, not exported, or embedded
without a name in its tag. -/
def jsonName (f : Field) : Option String :=
  match f.jsonTagName with
  | some name => if name = "-" then none else some name
  | none => if f.embedded || !isExported f.name then none else some f.name

/-- The members of the field take its place. -/
def isFlattened (f : Field) : Bool := f.embedded && f.jsonTagName.isNone

def omitsEmpty (f : Field) : Bool :=
  match f.jsonTag with
  | some values => (values.drop 1).contains "omitempty"
  | none => false

end Field

end GoOpenApi
