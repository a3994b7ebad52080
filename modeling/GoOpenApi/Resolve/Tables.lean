import GoOpenApi.Go.Field
import GoOpenApi.Module.Project
import GoOpenApi.Resolve.Shape

/-!
Resolving types. The declaration of a name is searched once, and its body is resolved and kept the
first time the name is met. Inside its own body a name stays a name, so every type has a shape
whatever the declarations look like.
-/

namespace GoOpenApi

/-- What is known about declared types. -/
structure Tables where
  sources : Sources
  /-- Results of searches, those without success included. -/
  declarations : Table QualifiedName (Option Declaration)
  definitions : Table QualifiedName Shape

namespace Tables

def empty : Tables := ⟨.empty, [], []⟩

def onSources (a : Action Sources α) : Action Tables α :=
  Action.focus Tables.sources (fun s t ↦ { t with sources := s }) a

/-- More than the number of declared types that a walk from a type of the given weight can meet.
Every one of them is declared in a file or a table, and its package is named there or in the
type. -/
def budget (p : Project) (tables : Tables) (weight : Nat) : Nat :=
  let read := totalWeight (fun (_, _, file) ↦ file.weight) tables.sources.files
  let found := totalWeight (fun (_, found?) ↦ totalWeight Declaration.weight found?.toList)
    tables.declarations
  let size := p.weight + read + found + weight
  (size + 2) * (size + 2)

variable (p : Project)

def declaration (q : QualifiedName) : Action Tables (Option Declaration) := do
  match (← get).declarations.find? q with
  | some found => return found
  | none =>
    let located ← onSources (Sources.locate p.files p.layout q.name q.package)
    let found := located.map (·.declaration)
    modify fun t ↦ { t with declarations := t.declarations.insert q found }
    return found

section

variable (named : QualifiedName → Action Tables Shape)

mutual

/-- The shape of a type that is written in a package, where `named` resolves declared types. -/
def shapeOf : GoType → String → Action Tables Shape
  | .named name (some origin), _ =>
    match Primitive.wellKnown? origin name with
    | some primitive => return .primitive primitive
    | none => named ⟨origin, name⟩
  | .named name none, package =>
    match Primitive.ofName? name with
    | some primitive => return .primitive primitive
    | none => named ⟨package, name⟩
  | .imported package next, _ => shapeOf next package
  | .pointer next, package => do return .pointer (← shapeOf next package)
  | .slice next, package =>
    if next.isByte then return .primitive .bytes
    else do return .array none (← shapeOf next package)
  | .ellipsis next, package => do return .array none (← shapeOf next package)
  | .array length next, package => do return .array (some length) (← shapeOf next package)
  | .map key value, package => do
    let key ← shapeOf key package
    return .map key (← shapeOf value package)
  | .interface [], _ => return .primitive .any
  | .interface methods, _ => return .interface (methods.map (·.name))
  | .struct fields, package => do return .record (← fieldsOf fields package)

def fieldsOf : List Field → String → Action Tables (List ShapeField)
  | [], _ => return []
  | ⟨name, type, tags, embedded⟩ :: fields, package => do
    let f : Field := ⟨name, type, tags, embedded⟩
    let shape ← shapeOf type package
    let first : ShapeField := ⟨name, f.jsonName, f.isFlattened, f.omitsEmpty, shape⟩
    return first :: (← fieldsOf fields package)

end

def bodyOf (package : String) : Declaration → Action Tables Shape
  | .struct d => do return .record (← fieldsOf named d.fields package)
  | .interface d => return .interface (d.methods.map (·.name))
  | .alias d => do return .alias (← shapeOf named d.target package)

/-- The body of a declared type, resolved on first use; none without a declaration. -/
def definitionWith (q : QualifiedName) : Action Tables (Option Shape) := do
  match (← get).definitions.find? q with
  | some body => return some body
  | none =>
    match ← declaration p q with
    | none => return none
    | some d =>
      let body ← bodyOf named q.package d
      modify fun t ↦ { t with definitions := t.definitions.insert q body }
      return some body

end

/-- A declared type inside the bodies of the types `inside`, at most `n` bodies deep. -/
def namedWithin : Nat → List QualifiedName → QualifiedName → Action Tables Shape
  | 0, _, _ => throw .endless
  | n + 1, inside, q => do
    if (← get).definitions.contains q || inside.contains q then return .named q
    match ← definitionWith p (namedWithin n (q :: inside)) q with
    | some _ => return .named q
    | none => return .unresolved q

def resolve (type : GoType) (package : String) : Action Tables Shape := do
  let n := budget p (← get) type.weight
  shapeOf (namedWithin p n []) type package

def resolveFields (fields : List Field) (package : String) : Action Tables (List ShapeField) := do
  let n := budget p (← get) (Field.weights fields)
  fieldsOf (namedWithin p n []) fields package

/-- The body of a declared type; none without a declaration. -/
def resolveDeclared (q : QualifiedName) : Action Tables (Option Shape) := do
  let n := budget p (← get) 0
  definitionWith p (namedWithin p n [q]) q

def definition? (tables : Tables) (q : QualifiedName) : Option Shape := tables.definitions.find? q

end Tables

end GoOpenApi
