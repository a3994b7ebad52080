import GoOpenApi.Service.Basic
import GoOpenApi.Json.Printer

/-!
Services as JSON values, for tools that make code from them.
-/

namespace GoOpenApi

def Binding.toJson (b : Binding) : Json :=
  .obj [("location", .str b.location.label), ("key", .str b.key), ("arg", .str b.arg),
    ("path", .strings b.path), ("type", b.type.toJson), ("package", .str b.package)]

def Binding.ofJson? (v : Json) : Option Binding := do
  return {
    location := ← (← v.field? "location" Json.str?) |> Location.ofLabel?
    key := ← v.field? "key" Json.str?
    arg := ← v.field? "arg" Json.str?
    path := ← v.field? "path" Json.strings?
    type := ← v.field? "type" GoType.ofJson?
    package := ← v.field? "package" Json.str? }

def Features.toJson (f : Features) : Json :=
  .record [("tests", some (.bool f.tests)), ("trace", some (.bool f.trace)),
    ("metrics", some (.bool f.metrics)), ("logger", some (.bool f.logger)),
    ("implements", f.implementsAt.map .str)]

def Endpoint.toJson (m : Endpoint) : Json :=
  .obj [("name", .str m.name), ("docs", .strings m.docs), ("args", .arr (Field.toJsons m.args)),
    ("results", .arr (Field.toJsons m.results)),
    ("own_annotations", .stringLists m.ownDirectives), ("annotations", .stringLists m.directives),
    ("request_name", .str m.requestName), ("response_name", .str m.responseName),
    ("http_path", .str m.httpPath), ("jsonrpc_path", .str m.rpcPath),
    ("bindings", .arr (m.bindings.map Binding.toJson)),
    ("result_bindings", .arr (m.resultBindings.map Binding.toJson))]

def Service.toJson (s : Service) : Json :=
  .obj [("name", .str s.name), ("package", .str s.package), ("docs", .strings s.docs),
    ("annotations", .stringLists s.directives), ("features", s.features.toJson),
    ("methods", .arr (s.methods.map Endpoint.toJson))]

def Service.renderAll (services : List Service) : String :=
  Json.render (.arr (services.map Service.toJson))

end GoOpenApi
