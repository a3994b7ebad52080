import GoOpenApi.Text.Split

/-!
Paths of files as texts. Slashes separate components; repeated slashes, slashes at the end and
single dots after the first component say nothing, and two paths with the same components are
the same place.
-/

namespace GoOpenApi

inductive Path.Component where
  | root
  | here
  | up
  | name (text : String)
  deriving DecidableEq

structure Path where
  text : String
  deriving DecidableEq

namespace Path

/-- Cuts a text into its pieces between slashes, each with the number of characters up to its
end. -/
def piecesFrom (start : Nat) : List (List Char) → List (List Char × Nat)
  | [] => []
  | piece :: rest =>
    (piece, start + piece.length) :: piecesFrom (start + piece.length + 1) rest

def isAbsolute (p : Path) : Bool := p.text.toList.head? == some '/'

/-- A piece as a component; the first one of a relative path may be a dot. -/
def component? (first : Bool) (piece : List Char) : Option Component :=
  if piece = [] then none
  else if piece = ['.'] then (if first then some .here else none)
  else if piece = ['.', '.'] then some .up
  else some (.name (String.ofList piece))

/-- The components, each with the number of characters up to its end. -/
def placed (p : Path) : List (Component × Nat) :=
  match piecesFrom 0 (Text.splitList (· == '/') p.text.toList) with
  | [] => []
  | (piece, stop) :: rest =>
    let others := rest.filterMap fun (piece, stop) ↦ (component? false piece).map (·, stop)
    if p.isAbsolute then (.root, 1) :: others
    else match component? true piece with
      | some c => (c, stop) :: others
      | none => others

def components (p : Path) : List Component := p.placed.map (·.1)

/-- The names among the components, joined with slashes. -/
def slashed (cs : List Component) : String :=
  Text.join "/" (cs.filterMap fun
    | .name s => some s
    | _ => none)

/-- The path `p` followed by `q`. An absolute `q` stands alone, and an empty one leaves a slash. -/
def join (p q : Path) : Path :=
  if q.isAbsolute then q
  else if p.text.isEmpty || p.text.toList.getLast? == some '/' then ⟨p.text ++ q.text⟩
  else ⟨p.text ++ "/" ++ q.text⟩

/-- The path up to the last but one component. A root and an empty path have no parent. -/
def parent (p : Path) : Option Path :=
  match p.placed.reverse with
  | [] => none
  | (.root, _) :: _ => none
  | [_] => some ⟨""⟩
  | _ :: (_, stop) :: _ => some ⟨String.ofList (p.text.toList.take stop)⟩

/-- The path and its parents, nearest first; there are at most `n` parents. -/
def ancestorsWithin : Nat → Path → List Path
  | 0, p => [p]
  | n + 1, p => match p.parent with
    | some q => p :: ancestorsWithin n q
    | none => [p]

def ancestors (p : Path) : List Path := ancestorsWithin p.placed.length p

def fileName? (p : Path) : Option String :=
  match p.components.getLast? with
  | some (.name s) => some s
  | _ => none

/-- What follows the last dot of the file name; a dot at its beginning does not count. -/
def extension? (p : Path) : Option String :=
  (p.fileName?.bind (Text.cutLast '.')).bind fun (stem, ending) ↦
    if stem.isEmpty then none else some ending

/-- The components after those of `base`, if the path begins with them. -/
def below? (base p : Path) : Option (List Component) :=
  if base.components.isPrefixOf p.components then
    some (p.components.drop base.components.length)
  else none

/-- The path `p` followed by the segments of `q` that are not empty, one after the other. -/
def joinSegments (p : Path) (q : String) : Path :=
  ((Text.split '/' q).filter (!·.isEmpty)).foldl (fun p segment ↦ p.join ⟨segment⟩) p

end Path

/-- The two written forms of a document. -/
inductive Format where
  | yaml
  | json
  deriving DecidableEq

namespace Format

def label : Format → String
  | yaml => "Yaml"
  | json => "Json"

/-- The ending `json`, in any case of its letters, chooses JSON. -/
def ofPath (p : Path) : Format :=
  match p.extension? with
  | some ending => if ending.toList.map Char.toLower = ['j', 's', 'o', 'n'] then .json else .yaml
  | none => .yaml

end Format

end GoOpenApi
