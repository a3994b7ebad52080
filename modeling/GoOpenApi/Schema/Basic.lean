import GoOpenApi.Dict
import GoOpenApi.Go.Predeclared
import GoOpenApi.Go.Type

/-!
Schemas of an OpenAPI document.
-/

namespace GoOpenApi

structure Schema where
  type : Option String := none
  format : Option String := none
  description : Option String := none
  properties : Option (List (String × Schema)) := none
  required : Option (List String) := none
  items : Option Schema := none
  additionalProperties : Option Schema := none
  reference : Option String := none
  oneOf : Option (List Schema) := none

namespace Schema

/-- A schema that says nothing. -/
def empty : Schema := {}

def typed (type : String) : Schema := { type := some type }

def formatted (type format : String) : Schema := { type := some type, format := some format }

def object : Schema := typed "object"

def array (items : Schema) : Schema := { type := some "array", items := some items }

def map (value : Schema) : Schema :=
  { type := some "object", additionalProperties := some value }

/-- What a reference writes before the id of the component. -/
def componentsPath : String := "#/components/schemas/"

def referenceTo (id : String) : Schema := { reference := some (componentsPath ++ id) }

def componentId? (s : Schema) : Option String :=
  s.reference.bind (Text.dropStart? componentsPath)

def described (description : String) (s : Schema) : Schema :=
  { s with description := some description }

/-- An object all of whose properties are required. -/
def record (properties : List (String × Schema)) : Schema :=
  { type := some "object"
    properties := some (Dict.ofList properties)
    required := some (properties.map (·.1)) }

/-- The schema is an object that has neither properties nor values. -/
def isEmptyObject (s : Schema) : Bool :=
  s.type = some "object" && (s.properties.getD []).isEmpty && s.additionalProperties.isNone

def ofPrimitive : Primitive → Schema
  | .bool => typed "boolean"
  | .string | .error => typed "string"
  | .int8 | .int16 | .int32 | .uint8 | .uint16 | .uint32 => formatted "integer" "int32"
  | .int | .int64 | .uint | .uint64 => formatted "integer" "int64"
  | .float32 => formatted "number" "float"
  | .float64 => formatted "number" "double"
  | .bytes => formatted "string" "byte"
  | .dateTime => formatted "string" "date-time"
  | .uuid => formatted "string" "uuid"
  | .any => empty

end Schema

end GoOpenApi
