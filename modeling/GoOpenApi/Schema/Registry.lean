import GoOpenApi.Schema.Basic

/-!
The components of a document. Each declared type has an id of its own, and each id one type.
-/

namespace GoOpenApi

structure Registry where
  ids : Table QualifiedName String
  owners : Dict QualifiedName
  schemas : Dict Schema

namespace Registry

def empty : Registry := ⟨[], [], []⟩

def idOf? (r : Registry) (q : QualifiedName) : Option String := r.ids.find? q

def ownerOf? (r : Registry) (id : String) : Option QualifiedName := r.owners.find? id

/-- The text `name` followed by the first number from `k` on that makes a free id, of `n` tries. -/
def freeFrom (r : Registry) (name : String) (k : Nat) : Nat → String
  | 0 => name ++ toString k
  | n + 1 =>
    let id := name ++ toString k
    if Dict.contains id r.owners then freeFrom r name (k + 1) n else id

/-- The name itself if it is free, else the name with the first number from 2 on that makes it
so. -/
def freeId (r : Registry) (name : String) : String :=
  if Dict.contains name r.owners then freeFrom r name 2 r.owners.length else name

/-- Gives a type its id. The answer tells the id and whether it is new. -/
def register (r : Registry) (q : QualifiedName) : String × Bool × Registry :=
  match r.idOf? q with
  | some id => (id, false, r)
  | none =>
    let id := r.freeId q.name
    (id, true, { r with ids := r.ids.insert q id, owners := r.owners.insert id q })

def setSchema (r : Registry) (id : String) (s : Schema) : Registry :=
  { r with schemas := r.schemas.insert id s }

def size (r : Registry) : Nat := r.ids.length

def component? (r : Registry) (s : Schema) : Option Schema := s.componentId?.bind r.schemas.find?

/-- The schema refers to a component without properties. -/
def refersToEmpty (r : Registry) (s : Schema) : Bool :=
  ((r.component? s).map Schema.isEmptyObject).getD false

end Registry

end GoOpenApi
