import GoOpenApi.Go.Predeclared
import GoOpenApi.Go.Codec

/-!
What types are made of. A declared type appears as its name, so the shape of a type that contains
itself is finite; the bodies of declared types are kept in a table by name.
-/

namespace GoOpenApi

mutual

inductive Shape where
  | primitive (p : Primitive)
  /-- A declared type with an entry in the table. -/
  | named (name : QualifiedName)
  /-- A name without a declaration. -/
  | unresolved (name : QualifiedName)
  | record (fields : List ShapeField)
  /-- The body of a declared type that is no struct. -/
  | alias (target : Shape)
  /-- A slice, or an array when the length is given. -/
  | array (length : Option UInt64) (item : Shape)
  | map (key value : Shape)
  | pointer (target : Shape)
  /-- An interface with at least one method, or a declared one. -/
  | interface (methods : List String)

structure ShapeField where
  name : String
  jsonName : Option String
  /-- The members of the field take its place. -/
  flatten : Bool
  omitsEmpty : Bool
  type : Shape

end

namespace Shape

def isPointer : Shape → Bool
  | .pointer _ => true
  | _ => false

/-- The declared type that a shape or a pointer to it names. -/
def embeddedName? : Shape → Option QualifiedName
  | .named q => some q
  | .pointer (.named q) => some q
  | _ => none

end Shape

/-- The field is always present in JSON. -/
def ShapeField.isRequired (f : ShapeField) : Bool :=
  f.jsonName.isSome && !f.omitsEmpty && !f.type.isPointer

mutual

def Shape.records : Shape → Nat
  | .record fields => ShapeField.recordsIn fields + 1
  | .alias target | .pointer target => target.records
  | .array _ item => item.records
  | .map key value => key.records + value.records
  | _ => 0

def ShapeField.recordsIn : List ShapeField → Nat
  | [] => 0
  | ⟨_, _, _, _, type⟩ :: fields => type.records + ShapeField.recordsIn fields

end

mutual

def Shape.toJson : Shape → Json
  | .primitive p => .obj [("kind", .str "primitive"), ("type", .str p.label)]
  | .named q => .obj [("kind", .str "named"), ("type", q.toJson)]
  | .unresolved q => .obj [("kind", .str "unresolved"), ("type", q.toJson)]
  | .record fields =>
    .obj [("kind", .str "record"), ("type", .arr (ShapeField.toJsons fields))]
  | .alias target => .obj [("kind", .str "alias"), ("type", target.toJson)]
  | .array length item =>
    .obj [("kind", .str "array"),
      ("type", .obj [("len", match length with
        | some n => .nat n.toNat
        | none => .null), ("elem", item.toJson)])]
  | .map key value =>
    .obj [("kind", .str "map"), ("type", .obj [("key", key.toJson), ("value", value.toJson)])]
  | .pointer target => .obj [("kind", .str "pointer"), ("type", target.toJson)]
  | .interface methods => .obj [("kind", .str "interface"), ("type", .strings methods)]

def ShapeField.toJson : ShapeField → Json
  | ⟨name, jsonName, flatten, omitsEmpty, type⟩ =>
    .obj [("name", .str name), ("json_name", .optStr jsonName), ("flatten", .bool flatten),
      ("omit_empty", .bool omitsEmpty), ("type", type.toJson)]

def ShapeField.toJsons : List ShapeField → List Json
  | [] => []
  | f :: fs => f.toJson :: ShapeField.toJsons fs

end

def QualifiedName.ofJson? (v : Json) : Option QualifiedName := do
  return ⟨← v.field? "package" Json.str?, ← v.field? "name" Json.str?⟩

def ShapeField.ofJsonWith? (shape : Json → Option Shape) (v : Json) : Option ShapeField := do
  return {
    name := ← v.field? "name" Json.str?
    jsonName := ← v.optional? "json_name" Json.str?
    flatten := ← v.field? "flatten" Json.bool?
    omitsEmpty := ← v.field? "omit_empty" Json.bool?
    type := ← v.field? "type" shape }

/-- A shape that nests at most `n` deep. -/
def Shape.ofJsonWithin? : Nat → Json → Option Shape
  | 0, _ => none
  | n + 1, v => do
    let content ← v.get? "type"
    match ← v.field? "kind" Json.str? with
    | "primitive" => return .primitive (← content.str?.bind Primitive.ofLabel?)
    | "named" => return .named (← QualifiedName.ofJson? content)
    | "unresolved" => return .unresolved (← QualifiedName.ofJson? content)
    | "record" => return .record (← content.list? (ShapeField.ofJsonWith? (ofJsonWithin? n)))
    | "alias" => return .alias (← ofJsonWithin? n content)
    | "array" =>
      return .array ((← content.optional? "len" Json.nat?).map UInt64.ofNat)
        (← content.field? "elem" (ofJsonWithin? n))
    | "map" =>
      return .map (← content.field? "key" (ofJsonWithin? n))
        (← content.field? "value" (ofJsonWithin? n))
    | "pointer" => return .pointer (← ofJsonWithin? n content)
    | "interface" => return .interface (← content.strings?)
    | _ => none

def Shape.ofJson? (v : Json) : Option Shape := ofJsonWithin? v.depth v

end GoOpenApi
