import GoOpenApi.Resolve.Tables

/-!
Following a path of field names from a type. Pointers and imports are looked through and declared
types entered; the walk stops at the first type that cannot be followed.
-/

namespace GoOpenApi

/-- The type at the end of a walk, and the package in which it is written. -/
structure Nested where
  type : GoType
  package : String

namespace Tables

variable (p : Project)

section

-- `enter` goes on from a declared type, given the place before it and the rest of the path.
variable (enter : QualifiedName → Nested → List String → Action Tables Nested)

mutual

/-- Follows a path from a type that is written in a package. -/
def follow : GoType → String → List String → Action Tables Nested
  | type, package, [] => return ⟨type, package⟩
  | .imported origin next, _, path => follow next origin path
  | .pointer next, package, path => follow next package path
  | .named name (some origin), package, path =>
    enter ⟨origin, name⟩ ⟨.named name (some origin), package⟩ path
  | .named name none, package, path =>
    if isPredeclared name then return ⟨.named name none, package⟩
    else enter ⟨package, name⟩ ⟨.named name none, package⟩ path
  | .struct fields, package, segment :: path =>
    followField fields ⟨.struct fields, package⟩ segment path
  | type, package, _ => return ⟨type, package⟩

/-- Follows a path into the first field of a name; `here` is where the walk stops without one. -/
def followField : List Field → Nested → String → List String → Action Tables Nested
  | [], here, _, _ => return here
  | ⟨name, type, _, _⟩ :: fields, here, segment, path =>
    if name = segment then follow type here.package path
    else followField fields here segment path

end

end

/-- Follows a path when the declared types `entered` have been entered and `n` more may be. -/
def followWithin : Nat → List QualifiedName → GoType → String → List String →
    Action Tables Nested
  | 0, _ => fun _ _ _ ↦ throw .endless
  | n + 1, entered =>
    follow fun q here path ↦ do
      if entered.contains q then return here
      match ← declaration p q with
      | some d => followWithin n (q :: entered) d.toType q.package path
      | none => return here

/-- The type that a path of field names reaches. No declared type is entered twice. -/
def nestedType (type : GoType) (package : String) (path : List String) : Action Tables Nested := do
  followWithin p (budget p (← get) type.weight) [] type package path

end Tables

end GoOpenApi
