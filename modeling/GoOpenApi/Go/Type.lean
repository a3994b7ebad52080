import GoOpenApi.Dict
import GoOpenApi.Text.Split

/-!
Types of the Go language as they are written. A qualified name carries the import path of its
package; what a name stands for is found elsewhere.
-/

namespace GoOpenApi

/-- A declared type: the import path of the declaring package and the name. -/
structure QualifiedName where
  package : String
  name : String
  deriving DecidableEq, Repr

/-- The dotted name `package.name`, or the name alone when the package is empty. -/
def QualifiedName.display (q : QualifiedName) : String :=
  if q.package.isEmpty then q.name else q.package ++ "." ++ q.name

mutual

/-- A type as it is written. -/
inductive GoType where
  /-- A type name; the package is given when the name was written with one. -/
  | named (name : String) (package : Option String)
  | pointer (next : GoType)
  | slice (next : GoType)
  | array (length : UInt64) (next : GoType)
  | map (key value : GoType)
  | interface (methods : List Method)
  /-- A struct written in place. -/
  | struct (fields : List Field)
  /-- The type of the last parameter of a variadic method. -/
  | ellipsis (next : GoType)
  | imported (package : String) (next : GoType)

/-- A struct field, an argument or a result. -/
structure Field where
  name : String
  type : GoType
  /-- The values under each key of the struct tag. -/
  tags : List (String × List String)
  embedded : Bool

/-- A method of an interface. -/
structure Method where
  name : String
  docs : List String
  args : List Field
  results : List Field

end

namespace GoType

/-- A name without a package. -/
def plain (name : String) : GoType := .named name none

def qualified (package name : String) : GoType := .imported package (.named name (some package))

/-- The package, if one was written, and the name of a named type. Pointers and containers have
no identity. -/
def identity : GoType → Option (Option String × String)
  | .named name package => some (package, name)
  | .imported package (.named name _) => some (some package, name)
  | _ => none

def isPointer : GoType → Bool
  | .pointer _ => true
  | _ => false

def isEllipsis : GoType → Bool
  | .ellipsis _ => true
  | _ => false

/-- A short text for reports. Members of structs and interfaces are left out. -/
def display : GoType → String
  | .named name _ => name
  | .pointer next => "*" ++ next.display
  | .slice next => "[]" ++ next.display
  | .array length next => "[" ++ toString length.toNat ++ "]" ++ next.display
  | .map key value => "map[" ++ key.display ++ "]" ++ value.display
  | .interface [] => "interface\x7b\x7d"
  | .interface _ => "interface\x7b...\x7d"
  | .struct _ => "struct\x7b...\x7d"
  | .ellipsis next => "..." ++ next.display
  | .imported package next =>
    ((Text.split '/' package).getLast?.getD package) ++ "." ++ next.display

end GoType

/-- A field without tags that is not embedded. -/
def Field.ofType (name : String) (type : GoType) : Field := ⟨name, type, [], false⟩

end GoOpenApi
