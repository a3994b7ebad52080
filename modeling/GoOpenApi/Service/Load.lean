import GoOpenApi.Resolve.Nested
import GoOpenApi.Service.Basic

/-!
Making services from the interfaces of a package.
-/

namespace GoOpenApi

mutual

/-- A type with the names that are written in `package` made names of that package. -/
def GoType.qualify (package : String) : GoType → GoType
  | .named name none => if isPredeclared name then .named name none else .qualified package name
  | .named name (some origin) => .named name (some origin)
  | .imported origin next => .imported origin next
  | .pointer next => .pointer (next.qualify package)
  | .slice next => .slice (next.qualify package)
  | .ellipsis next => .ellipsis (next.qualify package)
  | .array length next => .array length (next.qualify package)
  | .map key value => .map (key.qualify package) (value.qualify package)
  | .struct fields => .struct (Field.qualifyAll package fields)
  | .interface methods => .interface methods

def Field.qualifyAll (package : String) : List Field → List Field
  | [] => []
  | ⟨name, type, tags, embedded⟩ :: fields =>
    ⟨name, type.qualify package, tags, embedded⟩ :: Field.qualifyAll package fields

end

def Method.qualify (package : String) (m : Method) : Method :=
  { m with
    args := Field.qualifyAll package m.args
    results := Field.qualifyAll package m.results }

/-- The methods found so far, and the interfaces that have been met. -/
structure Gathered where
  met : List QualifiedName
  methods : List Method

namespace Gathered

/-- A method added unless there is one of its name. -/
def add (g : Gathered) (m : Method) : Gathered :=
  if g.methods.any (·.name == m.name) then g else { g with methods := g.methods ++ [m] }

/-- The methods of an interface added; those of another package are qualified. -/
def addAll (g : Gathered) (package home : String) (methods : List Method) : Gathered :=
  methods.foldl (fun g m ↦ g.add (if package = home then m else m.qualify package)) g

end Gathered

namespace Tables

variable (p : Project)

/-- The interfaces embedded in one of a package, by `enter` from a declaration and its package. -/
def gatherEmbedded (enter : InterfaceDecl → String → Gathered → Action Tables Gathered)
    (package : String) : List GoType → Gathered → Action Tables Gathered
  | [], g => return g
  | type :: types, g => do
    match type.identity with
    | none => gatherEmbedded enter package types g
    | some (origin, name) =>
      let q : QualifiedName := ⟨origin.getD package, name⟩
      if g.met.contains q then gatherEmbedded enter package types g
      else
        let g := { g with met := q :: g.met }
        match ← declaration p q with
        | some (.interface d) =>
          gatherEmbedded enter package types (← enter d q.package g)
        | _ => gatherEmbedded enter package types g

/-- The methods of an interface and of those embedded in it, at most `n` deep. -/
def gatherWithin (home : String) : Nat → InterfaceDecl → String → Gathered →
    Action Tables Gathered
  | 0, _, _, _ => throw .endless
  | n + 1, d, package, g =>
    gatherEmbedded p (gatherWithin home n) package d.embedded (g.addAll package home d.methods)

/-- The methods of an interface with those embedded in it; of one name the first counts. -/
def methodsOf (d : InterfaceDecl) (package : String) : Action Tables (List Method) := do
  let n := budget p (← get) (totalWeight GoType.weight d.embedded)
  return (← gatherWithin p package n d package ⟨[⟨package, d.name⟩], []⟩).methods

end Tables

/-- A field that appears in JSON under its own name unless it is tagged. -/
def Field.tagged (f : Field) : Field :=
  if Dict.contains "json" f.tags then f
  else { f with tags := Dict.insert "json" [f.name] f.tags }

/-- The field of a name, else the first one that differs only in the case of letters. -/
def Field.find? (fields : List Field) (name : String) : Option Field :=
  match fields.find? (·.name == name) with
  | some f => some f
  | none => fields.find? fun f ↦ Text.equalIgnoringAsciiCase f.name name

/-- What a directive or a path binds: the location, the target and the key. -/
structure BindingSpec where
  location : Location
  target : String
  key : String

namespace Endpoint

/-- An entry `target|key`, or one word for both. -/
def bindingSpec (location : Location) (entry : String) : BindingSpec :=
  match Text.cut '|' entry with
  | some (target, key) => ⟨location, Text.trim target, Text.trim key⟩
  | none => ⟨location, entry, entry⟩

/-- The parameters of the path, the headers and the cookies, in this order. -/
def bindingSpecs (m : Endpoint) : List BindingSpec :=
  (if m.isHttp then (Route.params m.httpPath).map fun name ↦ ⟨.path, name, name⟩ else []) ++
    (m.directives.values "http-headers").map (bindingSpec .header) ++
    (m.directives.values "http-cookies").map (bindingSpec .cookie)

/-- The argument, or else the result, that a name stands for. -/
def target? (m : Endpoint) (name : String) : Option (Field × Bool) :=
  match Field.find? m.requestFields name with
  | some f => some (f, false)
  | none => (Field.find? m.responseFields name).map (·, true)

variable (p : Project)

/-- The bindings of arguments and of results. A target that matches neither is left out. -/
def bind (m : Endpoint) (package : String) :
    List BindingSpec → Action Tables (List Binding × List Binding)
  | [] => return ([], [])
  | spec :: specs => do
    let segments := Text.split '.' spec.target
    match m.target? (segments.headD "") with
    | none => bind m package specs
    | some (f, isResult) =>
      let path := segments.drop 1
      let nested ← Tables.nestedType p f.type package path
      let b : Binding := ⟨spec.location, spec.key, f.name, path, nested.type, nested.package⟩
      let (args, results) ← bind m package specs
      return if isResult then (args, b :: results) else (b :: args, results)

/-- A method of a service before its bindings are known. -/
def ofMethod (service : String) (serviceDirectives : Directives) (m : Method) : Endpoint :=
  let own := Directives.parse m.docs
  let camel := Text.lowerCamel m.name
  let start := serviceDirectives.valueOr "http-prefix" ""
  { name := m.name
    docs := m.docs
    args := m.args.map Field.tagged
    results := m.results.map Field.tagged
    ownDirectives := own
    directives := serviceDirectives.merge own
    requestName := service ++ m.name ++ "Request"
    responseName := service ++ m.name ++ "Response"
    httpPath := Route.join [start, own.valueOr "http-path" camel]
    rpcPath :=
      Route.join [start, serviceDirectives.valueOr "http-path" (Text.lowercase service), camel]
    bindings := []
    resultBindings := [] }

def build (service : String) (serviceDirectives : Directives) (package : String) (m : Method) :
    Action Tables Endpoint := do
  let o := ofMethod service serviceDirectives m
  let (bindings, resultBindings) ← o.bind p package o.bindingSpecs
  return { o with bindings, resultBindings }

end Endpoint

namespace Service

variable (p : Project)

def buildMethods (service : String) (d : Directives) (package : String) :
    List Method → Action Tables (List Endpoint)
  | [] => return []
  | m :: ms => do
    let o ← Endpoint.build p service d package m
    return o :: (← buildMethods service d package ms)

def build (d : InterfaceDecl) (package : String) : Action Tables Service := do
  let directives := Directives.parse d.docs
  let methods ← buildMethods p d.name directives package (← Tables.methodsOf p d package)
  return ⟨d.name, package, d.docs, directives, .ofDirectives directives, methods⟩

/-- Without a filter an interface is a service when it has directives. -/
def isSelected (filter : List String) (d : InterfaceDecl) : Bool :=
  if filter.isEmpty then !(Directives.parse d.docs).isEmpty else filter.contains d.name

def buildAll (package : String) : List InterfaceDecl → Action Tables (List Service)
  | [] => return []
  | d :: ds => do
    let s ← build p d package
    return s :: (← buildAll package ds)

def load (dir : Path) (filter : List String) : Action Tables (List Service) := do
  let package := p.layout.importPathOf p.files dir
  let files ← Tables.onSources (Sources.package p.files dir)
  buildAll p package ((files.flatMap (·.2.interfaces)).filter (isSelected filter))

end Service

end GoOpenApi
