import GoOpenApi.Resolve.Nested
import GoOpenApi.Schema.Registry

/-!
Schemas of types. A declared type becomes a component, registered before its body is walked, so
that meeting it again gives a reference. Names for primitives and interfaces stay in place.
-/

namespace GoOpenApi

/-- The steps of making schemas. There is no result for a type that contains itself without end. -/
abbrev Build := StateT Registry Option

/-- A component for a type: its id is registered before its schema is made. -/
def componentOf (q : QualifiedName) (make : Build Schema) : Build Schema := do
  let (id, _, r) := (← get).register q
  set r
  let s ← make
  modify fun r ↦ r.setSchema id s
  return .referenceTo id

/-- The properties of an object while its fields are walked. -/
structure Collected where
  properties : Dict Schema := []
  /-- The required ones, in the order in which they were met. -/
  required : List String := []
  /-- The declared types whose members were promoted. -/
  embedded : List QualifiedName := []

namespace Collected

def toSchema (c : Collected) : Schema :=
  { type := some "object"
    properties := if c.properties.isEmpty then none else some c.properties
    required := if c.required.isEmpty then none else some c.required }

def add (c : Collected) (name : String) (isRequired : Bool) (s : Schema) : Collected :=
  { c with
    properties := c.properties.insert name s
    required := if isRequired then c.required ++ [name] else c.required }

end Collected

/-- How declared types are entered: as types of their own, or for members that are promoted. -/
structure Entrance where
  named : QualifiedName → Build Schema
  promoted : QualifiedName → Collected → Build Collected

namespace Entrance

variable (e : Entrance)

/-- The members of embedded types, each type once. -/
def collectPromoted : List ShapeField → Collected → Build Collected
  | [], c => return c
  | f :: fields, c => do
    match if f.flatten then f.type.embeddedName? else none with
    | some q => collectPromoted fields (← e.promoted q c)
    | none => collectPromoted fields c

mutual

def schemaOf : Shape → Build Schema
  | .primitive primitive => return .ofPrimitive primitive
  | .named q => e.named q
  | .unresolved _ => return .object
  | .record fields => do
    return (← e.collectPromoted fields (← collectDirect fields {})).toSchema
  | .alias target => schemaOf target
  | .array _ item => do return .array (← schemaOf item)
  | .map _ value => do return .map (← schemaOf value)
  | .pointer target => schemaOf target
  | .interface _ => return .object

/-- The fields that appear on their own; the first field of a name counts. -/
def collectDirect : List ShapeField → Collected → Build Collected
  | [], c => return c
  | ⟨name, jsonName, flatten, omitsEmpty, type⟩ :: fields, c => do
    match if flatten then none else jsonName with
    | some key =>
      if c.properties.contains key then collectDirect fields c
      else
        let s ← schemaOf type
        let f : ShapeField := ⟨name, jsonName, flatten, omitsEmpty, type⟩
        collectDirect fields (c.add key f.isRequired s)
    | none => collectDirect fields c

end

/-- The properties of a record added to those collected, direct ones first. -/
def collect (fields : List ShapeField) (c : Collected) : Build Collected := do
  e.collectPromoted fields (← e.collectDirect fields c)

def recordSchema (fields : List ShapeField) : Build Schema := do
  return (← e.collect fields {}).toSchema

end Entrance

/-- Walks that enter at most `n` declared types inside each other. -/
def entrance (definitions : QualifiedName → Option Shape) : Nat → Entrance
  | 0 => ⟨fun _ ↦ failure, fun _ _ ↦ failure⟩
  | n + 1 =>
    { named := fun q ↦ do
        match (← get).idOf? q with
        | some id => return .referenceTo id
        | none =>
          match definitions q with
          | none => return .object
          | some (.alias (.primitive primitive)) => return .ofPrimitive primitive
          | some (.interface _) => return .object
          | some body => componentOf q ((entrance definitions n).schemaOf body)
      promoted := fun q c ↦ do
        if c.embedded.contains q then return c
        let c := { c with embedded := q :: c.embedded }
        match definitions q with
        | some (.record fields) => (entrance definitions n).collect fields c
        | _ => return c }

/-- Tables of resolved types and the components made from them. -/
structure Generator where
  tables : Tables
  registry : Registry

namespace Generator

def empty : Generator := ⟨.empty, .empty⟩

def onTables (a : Action Tables α) : Action Generator α :=
  Action.focus Generator.tables (fun t g ↦ { g with tables := t }) a

/-- As many entrances as a walk can need that ends: on its way it registers each definition at
most once, and in between promotes each at most once for every record. -/
def depth (definitions : Table QualifiedName Shape) (records : Nat) : Nat :=
  let n := definitions.length + 1
  let records := totalWeight (fun d ↦ d.2.records) definitions + records + 1
  n * (n * records + 1)

/-- Makes schemas from shapes with the given number of records. -/
def build (records : Nat) (a : Entrance → Build α) : Action Generator α := do
  let g ← get
  let definitions := g.tables.definitions
  match a (entrance definitions.find? (depth definitions records)) g.registry with
  | some (result, r) => set { g with registry := r }; return result
  | none => throw .endless

/-- The schema of a resolved type. -/
def materialize (shape : Shape) : Action Generator Schema :=
  build shape.records fun e ↦ e.schemaOf shape

variable (p : Project)

def schema (type : GoType) (package : String) : Action Generator Schema := do
  materialize (← onTables (Tables.resolve p type package))

/-- What is added to the package of a container, so that it is no declared type. -/
def containerMark : String := "#container"

/-- The component made of arguments or results. -/
def container (name package : String) (fields : List Field) : Action Generator Schema := do
  let fields ← onTables (Tables.resolveFields p fields package)
  build (ShapeField.recordsIn fields + 1) fun e ↦
    componentOf ⟨package ++ containerMark, name⟩ (e.recordSchema fields)

end Generator

end GoOpenApi
