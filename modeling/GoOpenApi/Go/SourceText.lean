import GoOpenApi.Go.Grammar.Statement

/-!
Reading a whole Go file. Functions, constants, variables and statements between the declarations
are read and dropped; the types keep their docs, and packages become import paths.
-/

namespace GoOpenApi

namespace GoType

mutual

/-- Every package replaced by its image under `f`. -/
def mapPackages (f : String → String) : GoType → GoType
  | .named name package => .named name (package.map f)
  | .pointer next => .pointer (next.mapPackages f)
  | .slice next => .slice (next.mapPackages f)
  | .array length next => .array length (next.mapPackages f)
  | .map key value => .map (key.mapPackages f) (value.mapPackages f)
  | .interface methods => .interface (mapMethods f methods)
  | .struct fields => .struct (mapFields f fields)
  | .ellipsis next => .ellipsis (next.mapPackages f)
  | .imported package next => .imported (f package) (next.mapPackages f)

def mapField (f : String → String) : Field → Field
  | ⟨name, type, tags, embedded⟩ => ⟨name, type.mapPackages f, tags, embedded⟩

def mapFields (f : String → String) : List Field → List Field
  | [] => []
  | field :: fields => mapField f field :: mapFields f fields

def mapMethod (f : String → String) : Method → Method
  | ⟨name, docs, args, results⟩ => ⟨name, docs, mapFields f args, mapFields f results⟩

def mapMethods (f : String → String) : List Method → List Method
  | [] => []
  | method :: methods => mapMethod f method :: mapMethods f methods

end

end GoType

namespace Go

open GoOpenApi.Go.Parser

/-- What may stand at the top of a file. -/
inductive TopLevel where
  | package (name : String)
  | imports (imports : List Import)
  | types (specs : List (Sibling TypeSpec))
  | other

/-- The import path that an identifier stands for: that of the first import visible under it, or
the identifier itself. -/
def importPath (imports : List Import) (identifier : String) : String :=
  match imports.find? (·.localName == identifier) with
  | some i => i.path
  | none => identifier

/-- A name before an import path. Blank and dot imports have none of their own. -/
def importName : Parser (Option String) :=
  (do symbol "."; return none) <|> do
    let name ← anyWord
    return if name = "_" then none else some name

def importSpec : Parser Import := do
  let name? ← within false (optional importName)
  return ⟨name?.join, unquote (← stringLiteral)⟩

def importDeclaration : Parser (List Import) := do
  keyword "import"
  (do
    let specs ← members "(" ")" false importSpec
    return (documented specs).map (·.2)) <|>
  do return [← importSpec]

namespace Level

variable (g : Level)

def functionDeclaration : Parser Unit := do
  keyword "func"
  (do
    let _ ← anyWord
    let _ ← optional g.typeParameters
    let _ ← g.signature) <|>
  (do
    let _ ← g.parameters
    let _ ← anyWord
    let _ ← g.signature)
  let _ ← optional g.block

def topLevel : Parser TopLevel := do
  match (← peek).lexeme with
  | .word "package" => keyword "package"; return .package (← anyWord)
  | .word "import" => return .imports (← importDeclaration)
  | .word "func" => (g.functionDeclaration <|> g.simpleStatement true); return .other
  | .word "type" => return .types (← g.typeDeclaration)
  | _ => g.statementOf false; return .other

/-- A declaration ends with its line or a semicolon, and all but type declarations also with the
file. -/
def mayEndFile : TopLevel → Bool
  | .types _ => false
  | _ => true

/-- The file to its end, at most as many members as the given tokens. -/
def topLevelsWithin : List Token → Parser (List (Sibling TopLevel))
  | [] => fail
  | _ :: fuel => do
    if (← peek).lexeme = .eof then return []
    let siblings ← sibling g.topLevel
    let next ← peek
    if next.lexeme = .eof && !next.newline &&
        siblings.any (fun | .node _ _ item => !mayEndFile item | .comment _ => false) then fail
    let comments ← terminator
    return siblings ++ comments.map .comment ++ (← topLevelsWithin fuel)

end Level

def fileOf? (tokens : List Token) : Option (List (Sibling TopLevel)) :=
  ((level (tokens.length + 1)).topLevelsWithin tokens true tokens).map (·.1)

/-- The specifications of a type declaration. The only one of its declaration takes the docs of
the declaration when it has none of its own. -/
def specsOf : List String × TopLevel → List (List String × TypeSpec)
  | (docs, .types siblings) =>
    match documented siblings with
    | [([], spec)] => [(docs, spec)]
    | specs => specs
  | _ => []

def packageNames : TopLevel → Option String
  | .package name => some name
  | _ => none

def importsOf : TopLevel → List Import
  | .imports imports => imports
  | _ => []

/-- The content of a file from what stands at its top. -/
def collect (items : List (Sibling TopLevel)) : SourceFile :=
  let items := documented items
  let imports := items.flatMap fun (_, item) ↦ importsOf item
  let specs := items.flatMap specsOf
  let path := importPath imports
  { package := (items.filterMap fun (_, item) ↦ packageNames item).getLast?.getD ""
    imports
    interfaces := specs.filterMap fun (docs, spec) ↦ match spec.body with
      | .interface methods embedded =>
        some ⟨spec.name, docs, GoType.mapMethods path methods, embedded.map (·.mapPackages path)⟩
      | _ => none
    structs := specs.filterMap fun (docs, spec) ↦ match spec.body with
      | .struct fields => some ⟨spec.name, docs, GoType.mapFields path fields⟩
      | _ => none
    aliases := specs.filterMap fun (docs, spec) ↦ match spec.body with
      | .other type => some ⟨spec.name, docs, type.mapPackages path⟩
      | _ => none }

end Go

/-- The content of a Go text, unless it has a syntax error. -/
def SourceFile.parse? (text : String) : Option SourceFile :=
  ((Go.Token.ofText? text).bind Go.fileOf?).map Go.collect

end GoOpenApi
