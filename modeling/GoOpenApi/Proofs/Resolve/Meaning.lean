import GoOpenApi.Proofs.Module.Search
import GoOpenApi.Resolve.Tables
import Mathlib.Logic.Relation

/-!
What types mean by the files alone. The names in a type lead to declarations, the names in these
to others; what is known already has no part in it.
-/

namespace GoOpenApi

section

variable (named : QualifiedName → Shape)

mutual

/-- The shape of a type that is written in a package, where `named` stands for declared types. -/
def GoType.shape : GoType → String → Shape
  | .named name (some origin), _ =>
    match Primitive.wellKnown? origin name with
    | some primitive => .primitive primitive
    | none => named ⟨origin, name⟩
  | .named name none, package =>
    match Primitive.ofName? name with
    | some primitive => .primitive primitive
    | none => named ⟨package, name⟩
  | .imported package next, _ => next.shape package
  | .pointer next, package => .pointer (next.shape package)
  | .slice next, package =>
    if next.isByte then .primitive .bytes else .array none (next.shape package)
  | .ellipsis next, package => .array none (next.shape package)
  | .array length next, package => .array (some length) (next.shape package)
  | .map key value, package => .map (key.shape package) (value.shape package)
  | .interface [], _ => .primitive .any
  | .interface methods, _ => .interface (methods.map (·.name))
  | .struct fields, package => .record (Field.shapes fields package)

def Field.shapes : List Field → String → List ShapeField
  | [], _ => []
  | ⟨name, type, tags, embedded⟩ :: fields, package =>
    let f : Field := ⟨name, type, tags, embedded⟩
    ⟨name, f.jsonName, f.isFlattened, f.omitsEmpty, type.shape package⟩ ::
      Field.shapes fields package

end

def Declaration.body (package : String) : Declaration → Shape
  | .struct d => .record (Field.shapes named d.fields package)
  | .interface d => .interface (d.methods.map (·.name))
  | .alias d => .alias (d.target.shape named package)

end

mutual

/-- The declared types that are named in a type. -/
def GoType.names : GoType → String → List QualifiedName
  | .named name (some origin), _ =>
    match Primitive.wellKnown? origin name with
    | some _ => []
    | none => [⟨origin, name⟩]
  | .named name none, package =>
    match Primitive.ofName? name with
    | some _ => []
    | none => [⟨package, name⟩]
  | .imported package next, _ => next.names package
  | .pointer next, package | .ellipsis next, package | .array _ next, package =>
    next.names package
  | .slice next, package => if next.isByte then [] else next.names package
  | .map key value, package => key.names package ++ value.names package
  | .interface _, _ => []
  | .struct fields, package => Field.names fields package

def Field.names : List Field → String → List QualifiedName
  | [], _ => []
  | ⟨_, type, _, _⟩ :: fields, package => type.names package ++ Field.names fields package

end

/-- The declared types that are named in what a declaration declares. -/
def Declaration.names (package : String) : Declaration → List QualifiedName
  | .struct d => Field.names d.fields package
  | .interface _ => []
  | .alias d => d.target.names package

/-- The struct that is declared, if it is one. -/
def Declaration.struct? : Declaration → Option StructDecl
  | .struct decl => some decl
  | .interface _ | .alias _ => none

theorem Declaration.struct?_eq_some {d : Declaration} {decl : StructDecl} :
    d.struct? = some decl ↔ d = .struct decl := by
  cases d <;> simp [struct?]

namespace Project

variable (p : Project)

/-- What the name of a declared type stands for. -/
def named (q : QualifiedName) : Shape :=
  match p.declared? q with
  | some (some _) => .named q
  | _ => .unresolved q

/-- The body of a declared type; none without a declaration. -/
def body? (q : QualifiedName) : Option Shape :=
  (p.declared? q).join.map (Declaration.body p.named q.package)

/-- A declared type has the name of another in its body. -/
def Leads (q q' : QualifiedName) : Prop :=
  ∃ d, p.declared? q = some (some d) ∧ q' ∈ d.names q.package

/-- A name leads to one that cannot be searched without a fault. -/
def Faulty (q : QualifiedName) : Prop :=
  ∃ q', Relation.ReflTransGen p.Leads q q' ∧ p.declared? q' = none

/-- The declared types that lead to a fault. -/
def failing : Set QualifiedName := {q | p.body? q ≠ none ∧ p.Faulty q}

variable {p} {q q' : QualifiedName} {d : Declaration}

theorem bind_struct?_eq_some {decl : StructDecl} :
    (p.declared? q).join.bind Declaration.struct? = some decl ↔
      p.declared? q = some (some (.struct decl)) := by
  simp [Option.bind_eq_some_iff, Option.join_eq_some_iff, Declaration.struct?_eq_some]

theorem body?_of_declared (h : p.declared? q = some (some d)) :
    p.body? q = some (d.body p.named q.package) := by
  simp [body?, h]

theorem body?_of_undeclared (h : p.declared? q = some none) : p.body? q = none := by
  simp [body?, h]

theorem body?_of_leads (h : p.Leads q q') : p.body? q ≠ none := by
  obtain ⟨d, hd, -⟩ := h
  simp [body?_of_declared hd]

theorem named_of_body? (h : p.body? q ≠ none) : p.named q = .named q := by
  unfold body? at h
  unfold named
  rcases hd : p.declared? q with _ | _ | d <;> simp_all

theorem named_of_no_body (h : p.body? q = none) : p.named q = .unresolved q := by
  unfold body? at h
  unfold named
  rcases hd : p.declared? q with _ | _ | d <;> simp_all

theorem Faulty.of_leads (hl : p.Leads q q') (h : p.Faulty q') : p.Faulty q := by
  obtain ⟨q'', hr, hn⟩ := h
  exact ⟨q'', .head hl hr, hn⟩

end Project

end GoOpenApi
