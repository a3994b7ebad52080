import GoOpenApi.Go.Declaration
import GoOpenApi.Json.Basic

/-!
Types, fields and declarations as JSON values, and types read back from them.
-/

namespace GoOpenApi

namespace Json

def stringLists (d : Dict (List String)) : Json := .obj (d.map fun (key, vs) ↦ (key, strings vs))

mutual

def depth : Json → Nat
  | .arr items => depthItems items + 1
  | .obj members => depthMembers members + 1
  | _ => 1

def depthItems : List Json → Nat
  | [] => 0
  | item :: items => max item.depth (depthItems items)

def depthMembers : List (String × Json) → Nat
  | [] => 0
  | (_, value) :: members => max value.depth (depthMembers members)

end

end Json

mutual

def GoType.toJson : GoType → Json
  | .named name package =>
    .record [("kind", some (.str "named")), ("name", some (.str name)),
      ("package", package.map .str)]
  | .pointer next => .obj [("kind", .str "pointer"), ("next", next.toJson)]
  | .slice next => .obj [("kind", .str "slice"), ("next", next.toJson)]
  | .array length next =>
    .obj [("kind", .str "array"), ("len", .nat length.toNat), ("next", next.toJson)]
  | .map key value => .obj [("kind", .str "map"), ("key", key.toJson), ("value", value.toJson)]
  | .interface methods =>
    .obj [("kind", .str "interface"), ("methods", .arr (Method.toJsons methods))]
  | .struct fields => .obj [("kind", .str "struct"), ("fields", .arr (Field.toJsons fields))]
  | .ellipsis next => .obj [("kind", .str "ellipsis"), ("next", next.toJson)]
  | .imported package next =>
    .obj [("kind", .str "imported"), ("package", .str package), ("next", next.toJson)]

def Field.toJson : Field → Json
  | ⟨name, type, tags, embedded⟩ =>
    .record [("name", some (.str name)), ("type", some type.toJson),
      ("tags", if tags.isEmpty then none else some (Json.stringLists tags)),
      ("embedded", if embedded then some (.bool true) else none)]

def Field.toJsons : List Field → List Json
  | [] => []
  | f :: fs => f.toJson :: Field.toJsons fs

def Method.toJson : Method → Json
  | ⟨name, docs, args, results⟩ =>
    .record [("name", some (.str name)),
      ("docs", if docs.isEmpty then none else some (Json.strings docs)),
      ("args", some (.arr (Field.toJsons args))), ("results", some (.arr (Field.toJsons results)))]

def Method.toJsons : List Method → List Json
  | [] => []
  | m :: ms => m.toJson :: Method.toJsons ms

end

def Field.ofJsonWith? (type : Json → Option GoType) (v : Json) : Option Field := do
  return {
    name := ← v.field? "name" Json.str?
    type := ← v.field? "type" type
    tags := Dict.ofList (← v.default? "tags" [] (Json.dict? Json.strings?))
    embedded := ← v.default? "embedded" false Json.bool? }

def Method.ofJsonWith? (type : Json → Option GoType) (v : Json) : Option Method := do
  return {
    name := ← v.field? "name" Json.str?
    docs := ← v.default? "docs" [] Json.strings?
    args := ← v.field? "args" (Json.list? (Field.ofJsonWith? type))
    results := ← v.field? "results" (Json.list? (Field.ofJsonWith? type)) }

/-- A type that nests at most `n` deep. -/
def GoType.ofJsonWithin? : Nat → Json → Option GoType
  | 0, _ => none
  | n + 1, v => do
    let next := v.field? "next" (ofJsonWithin? n)
    match ← v.field? "kind" Json.str? with
    | "named" =>
      return .named (← v.field? "name" Json.str?) (← v.optional? "package" Json.str?)
    | "pointer" => return .pointer (← next)
    | "slice" => return .slice (← next)
    | "array" =>
      let length ← v.field? "len" Json.nat?
      if h : length < UInt64.size then return .array (UInt64.ofNatLT length h) (← next) else none
    | "map" =>
      return .map (← v.field? "key" (ofJsonWithin? n)) (← v.field? "value" (ofJsonWithin? n))
    | "interface" =>
      return .interface (← v.field? "methods" (Json.list? (Method.ofJsonWith? (ofJsonWithin? n))))
    | "struct" =>
      return .struct (← v.field? "fields" (Json.list? (Field.ofJsonWith? (ofJsonWithin? n))))
    | "ellipsis" => return .ellipsis (← next)
    | "imported" => return .imported (← v.field? "package" Json.str?) (← next)
    | _ => none

def GoType.ofJson? (v : Json) : Option GoType := ofJsonWithin? v.depth v

def Field.ofJson? (v : Json) : Option Field := ofJsonWith? GoType.ofJson? v

def Method.ofJson? (v : Json) : Option Method := ofJsonWith? GoType.ofJson? v

def QualifiedName.toJson (q : QualifiedName) : Json :=
  .obj [("package", .str q.package), ("name", .str q.name)]

def Import.toJson (i : Import) : Json :=
  .obj [("alias", .optStr i.alias?), ("path", .str i.path), ("local", .str i.localName)]

def InterfaceDecl.members (d : InterfaceDecl) : List (String × Json) :=
  [("name", .str d.name), ("docs", .strings d.docs), ("methods", .arr (Method.toJsons d.methods)),
    ("embedded", .arr (d.embedded.map GoType.toJson))]

def StructDecl.members (d : StructDecl) : List (String × Json) :=
  [("name", .str d.name), ("docs", .strings d.docs), ("fields", .arr (Field.toJsons d.fields))]

def AliasDecl.members (d : AliasDecl) : List (String × Json) :=
  [("name", .str d.name), ("docs", .strings d.docs), ("target", d.target.toJson)]

def Declaration.toJson : Declaration → Json
  | .interface d => .obj (("decl", .str "interface") :: d.members)
  | .struct d => .obj (("decl", .str "struct") :: d.members)
  | .alias d => .obj (("decl", .str "alias") :: d.members)

def SourceFile.toJson (file : SourceFile) : Json :=
  .obj [("package", .str file.package), ("imports", .arr (file.imports.map Import.toJson)),
    ("interfaces", .arr (file.interfaces.map fun d ↦ .obj d.members)),
    ("structs", .arr (file.structs.map fun d ↦ .obj d.members)),
    ("aliases", .arr (file.aliases.map fun d ↦ .obj d.members))]

end GoOpenApi
