import GoOpenApi.Directive
import GoOpenApi.Go.Codec
import GoOpenApi.Go.Predeclared
import GoOpenApi.Service.Route
import GoOpenApi.Text.Case

/-!
Services: interfaces with directives, and the operations that their methods stand for.
-/

namespace GoOpenApi

/-- Where a value travels outside the body. -/
inductive Location where
  | path
  | header
  | cookie
  deriving DecidableEq, Repr

def Location.label : Location → String
  | path => "path"
  | header => "header"
  | cookie => "cookie"

def Location.ofLabel? (s : String) : Option Location :=
  [path, header, cookie].find? (·.label == s)

/-- A value that travels outside the body: an argument or result, or a field inside one. -/
structure Binding where
  location : Location
  key : String
  arg : String
  /-- The names of the fields on the way inside it; none for the whole. -/
  path : List String
  type : GoType
  /-- The package in which the type is written. -/
  package : String

/-- The response that a directive gives for a status code. -/
inductive ResponseOverride where
  | skip
  /-- A body of the named type. -/
  | payload (type : QualifiedName)
  /-- A description without a body. -/
  | text (description : String)
  deriving DecidableEq

/-- Import paths have a slash or a point. -/
def isImportPath (s : String) : Bool :=
  !Text.hasBlank s && s.toList.any fun c ↦ c == '/' || c == '.'

/-- The word `skip`, a package and a type with a colon in between, or a description. -/
def ResponseOverride.parse (s : String) : ResponseOverride :=
  let s := Text.trim s
  if s = "skip" then .skip
  else match Text.cutLast ':' s with
    | some (package, name) =>
      if isImportPath package && !name.isEmpty && !Text.hasBlank name then .payload ⟨package, name⟩
      else .text s
    | none => .text s

/-- What a service asks other tools to make for it. -/
structure Features where
  tests : Bool
  trace : Bool
  metrics : Bool
  logger : Bool
  /-- The place of an implementation. -/
  implementsAt : Option String
  deriving DecidableEq

def Features.ofDirectives (d : Directives) : Features where
  tests := d.contains "tests"
  trace := d.contains "trace"
  metrics := d.contains "metrics"
  logger := d.contains "logger"
  implementsAt := d.text? "implements"

structure Endpoint where
  name : String
  docs : List String
  args : List Field
  results : List Field
  ownDirectives : Directives
  /-- The directives of the service, overlaid with those of the method. -/
  directives : Directives
  requestName : String
  responseName : String
  httpPath : String
  rpcPath : String
  /-- Arguments that travel outside the body. -/
  bindings : List Binding
  resultBindings : List Binding

structure Service where
  name : String
  package : String
  docs : List String
  directives : Directives
  features : Features
  methods : List Endpoint

def GoType.isContext : GoType → Bool
  | .imported package (.named name _) => package = "context" && name = "Context"
  | _ => false

def GoType.isError : GoType → Bool
  | .named name none => name = "error"
  | _ => false

def isContextFirst (args : List Field) : Bool := (args.head?.map (·.type.isContext)).getD false

def isErrorLast (results : List Field) : Bool :=
  (results.getLast?.map (·.type.isError)).getD false

namespace Endpoint

variable (m : Endpoint)

/-- The arguments without the context. -/
def requestFields : List Field := if isContextFirst m.args then m.args.drop 1 else m.args

/-- The results without the error. -/
def responseFields : List Field := if isErrorLast m.results then m.results.dropLast else m.results

/-- Pairs of an argument and a form field from entries `arg|field`. -/
def uploads : List (String × String) :=
  (m.directives.values "upload-vars").map fun entry ↦ match Text.cut '|' entry with
    | some (arg, field) => (Text.trim arg, Text.trim field)
    | none => (entry, entry)

/-- The bindings carry the whole of a field. -/
def carries (bindings : List Binding) (f : Field) : Bool :=
  bindings.any fun b ↦ b.arg == f.name && b.path.isEmpty

/-- The arguments in the body: all that are neither uploaded nor bound as a whole. -/
def bodyFields : List Field :=
  m.requestFields.filter fun f ↦
    !(m.uploads.map (·.1)).contains f.name && !carries m.bindings f

def responseBodyFields : List Field := m.responseFields.filter fun f ↦ !carries m.resultBindings f

def isHttp : Bool := m.directives.contains "http-method"

def httpMethod : String := Text.uppercase (m.directives.valueOr "http-method" "POST")

def successCode : Int := m.directives.intOr "http-success" 200

def camelName : String := Text.lowerCamel m.name

def summary : Option String := m.directives.text? "summary"

def description : Option String := m.directives.text? "desc"

def isDeprecated : Bool := m.directives.contains "deprecated"

/-- Fields that are not to be logged. -/
def logSkip : List String := m.directives.values "log-skip"

/-- The tags of the operation; by default the name of the service. -/
def tags (service : String) : List String :=
  match m.directives.values "swagger-tags" with
  | [] => [service]
  | tags => tags

/-- The status code that a directive is for. -/
def statusCode? (key : String) : Option Nat :=
  (Text.unsigned? 16 10 key.toList).filter fun code ↦ 100 ≤ code && code ≤ 599

/-- A dictionary by status codes, in their order; a later entry of a code replaces the value. -/
def insertCode (code : Nat) (o : ResponseOverride) :
    List (Nat × ResponseOverride) → List (Nat × ResponseOverride)
  | [] => [(code, o)]
  | (k, v) :: rest =>
    if code = k then (code, o) :: rest
    else if code < k then (code, o) :: (k, v) :: rest
    else (k, v) :: insertCode code o rest

/-- The responses that directives give for status codes, by code. -/
def responseOverrides : List (Nat × ResponseOverride) :=
  m.directives.foldl (fun overrides (key, values) ↦
    match statusCode? key with
    | some code => insertCode code (.parse (Text.join "," values)) overrides
    | none => overrides) []

/-- The response for errors that have no status code of their own. -/
def defaultError : Option ResponseOverride :=
  (m.directives.text? "defaultError").map .parse

end Endpoint

namespace Service

variable (s : Service)

def isRpc : Bool := s.directives.contains "server-jsonrpc"

def isHttp : Bool := s.directives.contains "server-http"

def lowerName : String := Text.lowercase s.name

/-- The path of the endpoint for batches of calls. -/
def batchPath : String :=
  Route.join [s.directives.valueOr "http-prefix" "", s.directives.valueOr "http-path" s.lowerName]

def method? (name : String) : Option Endpoint := s.methods.find? (·.name == name)

end Service

end GoOpenApi
