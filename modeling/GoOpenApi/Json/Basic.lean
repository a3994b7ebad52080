/-!
Tree values: what a JSON or YAML text writes down. Members of an object keep the order in
which they were given.
-/

namespace GoOpenApi

inductive Json where
  | null
  | bool (value : Bool)
  | num (value : Int)
  | str (value : String)
  | arr (items : List Json)
  | obj (members : List (String × Json))

namespace Json

def strings (ss : List String) : Json := .arr (ss.map .str)

def nat (n : Nat) : Json := .num n

/-- The text, or null. -/
def optStr : Option String → Json
  | some s => .str s
  | none => .null

/-- An object from members of which some may be absent. -/
def record (members : List (String × Option Json)) : Json :=
  .obj (members.filterMap fun (key, value?) ↦ value?.map (key, ·))

def get? (key : String) : Json → Option Json
  | .obj members => members.lookup key
  | _ => none

def str? : Json → Option String
  | .str s => some s
  | _ => none

def bool? : Json → Option Bool
  | .bool b => some b
  | _ => none

def int? : Json → Option Int
  | .num n => some n
  | _ => none

def nat? : Json → Option Nat
  | .num n => if 0 ≤ n then some n.toNat else none
  | _ => none

def items? : Json → Option (List Json)
  | .arr items => some items
  | _ => none

def members? : Json → Option (List (String × Json))
  | .obj members => some members
  | _ => none

def list? (f : Json → Option α) (v : Json) : Option (List α) := v.items?.bind (·.mapM f)

def strings? : Json → Option (List String) := list? str?

def dict? (f : Json → Option α) (v : Json) : Option (List (String × α)) :=
  v.members?.bind (·.mapM fun (key, value) ↦ (f value).map (key, ·))

/-- A member that must be there. -/
def field? (key : String) (f : Json → Option α) (v : Json) : Option α := (v.get? key).bind f

/-- A member that may be absent or null. -/
def optional? (key : String) (f : Json → Option α) (v : Json) : Option (Option α) :=
  match v.get? key with
  | none | some .null => some none
  | some value => (f value).map some

/-- A member with a value that stands for its absence. -/
def default? (key : String) (absent : α) (f : Json → Option α) (v : Json) : Option α :=
  match v.get? key with
  | none => some absent
  | some value => f value

end Json

end GoOpenApi
