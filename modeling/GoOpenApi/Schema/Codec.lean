import GoOpenApi.Schema.Basic
import GoOpenApi.Json.Basic
import GoOpenApi.Go.Codec

/-!
Schemas as JSON values. Absent parts leave no member.
-/

namespace GoOpenApi.Schema

mutual

def toJson : Schema → Json
  | ⟨type, format, description, properties, required, items, additional, reference, oneOf⟩ =>
    .record [("type", type.map .str), ("format", format.map .str),
      ("description", description.map .str),
      ("properties", match properties with
        | some ps => some (.obj (propertiesToJson ps))
        | none => none),
      ("required", required.map .strings),
      ("items", match items with
        | some s => some s.toJson
        | none => none),
      ("additionalProperties", match additional with
        | some s => some s.toJson
        | none => none),
      ("$ref", reference.map .str),
      ("oneOf", match oneOf with
        | some ss => some (.arr (listToJson ss))
        | none => none)]

def propertiesToJson : List (String × Schema) → List (String × Json)
  | [] => []
  | (key, s) :: rest => (key, s.toJson) :: propertiesToJson rest

def listToJson : List Schema → List Json
  | [] => []
  | s :: rest => s.toJson :: listToJson rest

end

/-- A schema that nests at most `n` deep. -/
def ofJsonWithin? : Nat → Json → Option Schema
  | 0, _ => none
  | n + 1, v => do
    let _ ← v.members?
    return {
      type := ← v.optional? "type" Json.str?
      format := ← v.optional? "format" Json.str?
      description := ← v.optional? "description" Json.str?
      properties := (← v.optional? "properties" (Json.dict? (ofJsonWithin? n))).map Dict.ofList
      required := ← v.optional? "required" Json.strings?
      items := ← v.optional? "items" (ofJsonWithin? n)
      additionalProperties := ← v.optional? "additionalProperties" (ofJsonWithin? n)
      reference := ← v.optional? "$ref" Json.str?
      oneOf := ← v.optional? "oneOf" (Json.list? (ofJsonWithin? n)) }

def ofJson? (v : Json) : Option Schema := ofJsonWithin? v.depth v

end GoOpenApi.Schema
