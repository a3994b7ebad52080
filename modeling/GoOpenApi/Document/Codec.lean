import GoOpenApi.Document.Basic
import GoOpenApi.Files.Path
import GoOpenApi.Json.Printer
import GoOpenApi.Schema.Codec
import GoOpenApi.Yaml.Printer

/-!
Documents as JSON values, documents read back from them, and the two written forms.
-/

namespace GoOpenApi

namespace Json

def dict (f : α → Json) (d : Dict α) : Json := .obj (d.map fun (key, value) ↦ (key, f value))

def ordered? (f : Json → Option α) (v : Json) : Option (Dict α) := (v.dict? f).map Dict.ofList

end Json

def Info.toJson (i : Info) : Json :=
  .record [("title", some (.str i.title)), ("version", some (.str i.version)),
    ("description", i.description.map .str)]

def Info.ofJson? (v : Json) : Option Info := do
  return ⟨← v.field? "title" Json.str?, ← v.field? "version" Json.str?,
    ← v.optional? "description" Json.str?⟩

def Server.toJson (s : Server) : Json :=
  .record [("url", some (.str s.url)), ("description", s.description.map .str)]

def Server.ofJson? (v : Json) : Option Server := do
  return ⟨← v.field? "url" Json.str?, ← v.optional? "description" Json.str?⟩

def Parameter.toJson (p : Parameter) : Json :=
  .record [("name", some (.str p.name)), ("in", some (.str p.location)),
    ("required", some (.bool p.required)), ("schema", some p.schema.toJson),
    ("description", p.description.map .str)]

def Parameter.ofJson? (v : Json) : Option Parameter := do
  return ⟨← v.field? "name" Json.str?, ← v.field? "in" Json.str?,
    ← v.field? "required" Json.bool?, ← v.field? "schema" Schema.ofJson?,
    ← v.optional? "description" Json.str?⟩

def MediaType.toJson (m : MediaType) : Json := .obj [("schema", m.schema.toJson)]

def MediaType.ofJson? (v : Json) : Option MediaType := do
  return ⟨← v.field? "schema" Schema.ofJson?⟩

def RequestBody.toJson (b : RequestBody) : Json :=
  .record [("description", b.description.map .str), ("required", some (.bool b.required)),
    ("content", some (.dict MediaType.toJson b.content))]

def RequestBody.ofJson? (v : Json) : Option RequestBody := do
  return ⟨← v.optional? "description" Json.str?, ← v.field? "required" Json.bool?,
    ← v.field? "content" (Json.ordered? MediaType.ofJson?)⟩

def Header.toJson (h : Header) : Json :=
  .record [("description", h.description.map .str), ("schema", some h.schema.toJson)]

def Header.ofJson? (v : Json) : Option Header := do
  return ⟨← v.optional? "description" Json.str?, ← v.field? "schema" Schema.ofJson?⟩

def Response.toJson (r : Response) : Json :=
  .record [("description", some (.str r.description)),
    ("headers", r.headers.map (.dict Header.toJson)),
    ("content", r.content.map (.dict MediaType.toJson))]

def Response.ofJson? (v : Json) : Option Response := do
  return ⟨← v.field? "description" Json.str?,
    ← v.optional? "headers" (Json.ordered? Header.ofJson?),
    ← v.optional? "content" (Json.ordered? MediaType.ofJson?)⟩

def Operation.toJson (o : Operation) : Json :=
  .record [("tags", o.tags.map .strings), ("summary", o.summary.map .str),
    ("description", o.description.map .str), ("operationId", o.operationId.map .str),
    ("deprecated", o.deprecated.map .bool),
    ("parameters", o.parameters.map fun ps ↦ .arr (ps.map Parameter.toJson)),
    ("requestBody", o.requestBody.map RequestBody.toJson),
    ("responses", some (.dict Response.toJson o.responses))]

def Operation.ofJson? (v : Json) : Option Operation := do
  return {
    tags := ← v.optional? "tags" Json.strings?
    summary := ← v.optional? "summary" Json.str?
    description := ← v.optional? "description" Json.str?
    operationId := ← v.optional? "operationId" Json.str?
    deprecated := ← v.optional? "deprecated" Json.bool?
    parameters := ← v.optional? "parameters" (Json.list? Parameter.ofJson?)
    requestBody := ← v.optional? "requestBody" RequestBody.ofJson?
    responses := ← v.field? "responses" (Json.ordered? Response.ofJson?) }

def PathItem.toJson (item : PathItem) : Json :=
  .record (Verb.all.map fun verb ↦ (verb.label, (item.at? verb).map Operation.toJson))

def PathItem.ofJson? (v : Json) : Option PathItem := do
  let operation (verb : Verb) := v.optional? verb.label Operation.ofJson?
  return ⟨← operation .get, ← operation .post, ← operation .put, ← operation .delete,
    ← operation .patch, ← operation .options, ← operation .head⟩

def Components.toJson (c : Components) : Json :=
  .record [("schemas", c.schemas.map (.dict Schema.toJson))]

def Components.ofJson? (v : Json) : Option Components := do
  return ⟨← v.optional? "schemas" (Json.ordered? Schema.ofJson?)⟩

def Document.toJson (d : Document) : Json :=
  .record [("openapi", some (.str d.openapi)), ("info", some d.info.toJson),
    ("servers", d.servers.map fun ss ↦ .arr (ss.map Server.toJson)),
    ("paths", some (.dict PathItem.toJson d.paths)),
    ("components", d.components.map Components.toJson)]

def Document.ofJson? (v : Json) : Option Document := do
  return {
    openapi := ← v.field? "openapi" Json.str?
    info := ← v.field? "info" Info.ofJson?
    servers := ← v.optional? "servers" (Json.list? Server.ofJson?)
    paths := ← v.field? "paths" (Json.ordered? PathItem.ofJson?)
    components := ← v.optional? "components" Components.ofJson? }

def Document.render (d : Document) : Format → String
  | .yaml => Yaml.render d.toJson
  | .json => Json.render d.toJson

end GoOpenApi
