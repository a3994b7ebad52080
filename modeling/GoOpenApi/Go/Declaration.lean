import GoOpenApi.Go.Type

/-!
What a Go file declares, as far as services need it.
-/

namespace GoOpenApi

structure Import where
  /-- The name written before the path, if any. -/
  alias? : Option String
  path : String
  deriving DecidableEq

/-- A major version: `v` and digits, at least one. -/
def isMajorVersion (segment : String) : Bool :=
  match segment.toList with
  | 'v' :: c :: cs => (c :: cs).all Char.isDigit
  | _ => false

/-- The package name that is guessed from an import path: `gopkg.in/yaml.v3` is `yaml`,
`github.com/go-kit/kit/v2` is `kit` and `github.com/satori/go.uuid` is `uuid`. -/
def guessedPackageName (path : String) : String :=
  let segments := (Text.split '/' path).filter (!·.isEmpty)
  let segments :=
    if 1 < segments.length && (segments.getLast?.map isMajorVersion).getD false then
      segments.dropLast
    else segments
  let last := segments.getLast?.getD path
  let name := match Text.cutLast '.' last with
    | some (base, ending) => if isMajorVersion ending then base else ending
    | none => last
  let name := (Text.dropStart? "go-" name).getD name
  (Text.split '-' name).getLast?.getD name

/-- The identifier that stands for the package in the file. -/
def Import.localName (i : Import) : String := i.alias?.getD (guessedPackageName i.path)

structure InterfaceDecl where
  name : String
  docs : List String
  methods : List Method
  /-- Embedded interfaces and members of unions, in order. -/
  embedded : List GoType

structure StructDecl where
  name : String
  docs : List String
  fields : List Field

/-- A named type that is neither an interface nor a struct, or another name for any type. -/
structure AliasDecl where
  name : String
  docs : List String
  target : GoType

inductive Declaration where
  | interface (decl : InterfaceDecl)
  | struct (decl : StructDecl)
  | alias (decl : AliasDecl)

namespace Declaration

def name : Declaration → String
  | .interface d => d.name
  | .struct d => d.name
  | .alias d => d.name

/-- The declared type with the name taken away. -/
def toType : Declaration → GoType
  | .interface d => .interface d.methods
  | .struct d => .struct d.fields
  | .alias d => d.target

end Declaration

structure SourceFile where
  package : String
  imports : List Import
  interfaces : List InterfaceDecl
  structs : List StructDecl
  aliases : List AliasDecl

namespace SourceFile

/-- All declarations: interfaces before named types, structs last. -/
def declarations (file : SourceFile) : List Declaration :=
  file.interfaces.map .interface ++ file.aliases.map .alias ++ file.structs.map .struct

def find? (file : SourceFile) (name : String) : Option Declaration :=
  file.declarations.find? (·.name == name)

end SourceFile

end GoOpenApi
