import GoOpenApi.Dict
import GoOpenApi.Files.Path

/-!
A tree of files. Paths are looked up from the root or, when they are relative, from the working
directory; there are no links. Writing creates what is missing and reports what is in its way.
-/

namespace GoOpenApi

inductive Content where
  | text (s : String)
  /-- Bytes that are no UTF-8 text. -/
  | binary (bytes : List UInt8)
  deriving DecidableEq

def Content.ofBytes (bytes : ByteArray) : Content :=
  match String.fromUTF8? bytes with
  | some s => .text s
  | none => .binary bytes.toList

/-- A file, or a directory with its entries by name. -/
inductive Node where
  | file (content : Content)
  | dir (entries : List (String × Node))

/-- Why the tree refuses an operation. -/
inductive FileFault where
  | notFound
  | alreadyExists
  | notDirectory
  | isDirectory
  | notText
  /-- No directory above a path can be made. -/
  | noTree
  /-- A package was looked for where there is no directory. -/
  | notPackage (dir : Path)
  deriving DecidableEq

def FileFault.message : FileFault → String
  | notFound => "No such file or directory (os error 2)"
  | alreadyExists => "File exists (os error 17)"
  | notDirectory => "Not a directory (os error 20)"
  | isDirectory => "Is a directory (os error 21)"
  | notText => "stream did not contain valid UTF-8"
  | noTree => "failed to create whole tree"
  | notPackage dir => "not a package directory: " ++ dir.text

namespace Node

def isDir : Node → Bool
  | .dir _ => true
  | .file _ => false

def at? : List String → Node → Option Node
  | [], n => some n
  | name :: names, .dir entries => (Dict.find? name entries).bind (at? names)
  | _ :: _, .file _ => none

/-- The node with `new` at a list of names; directories above it are made. -/
def put (new : Node) : List String → Node → Node
  | [], _ => new
  | name :: names, .dir entries =>
    .dir (Dict.insert name (put new names ((Dict.find? name entries).getD (.dir []))) entries)
  | name :: names, .file _ => .dir [(name, put new names (.dir []))]

def erase : List String → Node → Node
  | [], n => n
  | [name], .dir entries => .dir (entries.filter fun entry ↦ !entry.1 == name)
  | name :: names, .dir entries =>
    match Dict.find? name entries with
    | some n => .dir (Dict.insert name (erase names n) entries)
    | none => .dir entries
  | _ :: _, .file content => .file content

mutual

/-- The files at and below a node that stands at the names `above`. -/
def filesFrom (above : List String) : Node → List (List String × Content)
  | .file content => [(above, content)]
  | .dir entries => entriesFrom above entries

def entriesFrom (above : List String) : List (String × Node) → List (List String × Content)
  | [] => []
  | (name, n) :: rest => filesFrom (above ++ [name]) n ++ entriesFrom above rest

end

def files (n : Node) : List (List String × Content) := filesFrom [] n

end Node

structure FileTree where
  root : Node
  /-- The working directory, from the root. -/
  home : List String

namespace FileTree

/-- What follows the last slash of a path. -/
def lastPiece (p : Path) : List Char :=
  ((Text.splitList (· == '/') p.text.toList).getLast?).getD []

/-- A path ends with a slash or dots, so that only a directory can be meant. -/
def meansDirectory (p : Path) : Bool :=
  lastPiece p = [] || lastPiece p = ['.'] || lastPiece p = ['.', '.']

/-- Where a path leads from the place `here`, one component at a time. -/
def walk (t : FileTree) : List String → List Path.Component → Except FileFault (List String)
  | here, [] => .ok here
  | _, .root :: cs => walk t [] cs
  | here, .here :: cs => walk t here cs
  | here, .up :: cs =>
    match t.root.at? here with
    | some (.dir _) => walk t here.dropLast cs
    | some (.file _) => .error .notDirectory
    | none => .error .notFound
  | here, .name s :: cs =>
    match t.root.at? here with
    | some (.dir entries) =>
      if Dict.contains s entries then walk t (here ++ [s]) cs else .error .notFound
    | some (.file _) => .error .notDirectory
    | none => .error .notFound

/-- The place of an existing file or directory, and what is there. -/
def locate (t : FileTree) (p : Path) : Except FileFault (List String × Node) := do
  if p.text.isEmpty then throw .notFound
  let place ← t.walk t.home p.components
  match t.root.at? place with
  | some (.file content) =>
    if meansDirectory p then throw .notDirectory else return (place, .file content)
  | some n => return (place, n)
  | none => throw .notFound

def isDir (t : FileTree) (p : Path) : Bool :=
  match t.locate p with
  | .ok (_, .dir _) => true
  | _ => false

def isFile (t : FileTree) (p : Path) : Bool :=
  match t.locate p with
  | .ok (_, .file _) => true
  | _ => false

def doesExist (t : FileTree) (p : Path) : Bool :=
  match t.locate p with
  | .ok _ => true
  | .error _ => false

/-- The path of a place. -/
def pathOf (place : List String) : Path := ⟨"/" ++ Text.join "/" place⟩

/-- The path without dots and links from the root to what exists there; the path itself if
nothing does. -/
def canonical (t : FileTree) (p : Path) : Path :=
  match t.locate p with
  | .ok (place, _) => pathOf place
  | .error _ => p

def readText (t : FileTree) (p : Path) : Except FileFault String := do
  match (← t.locate p).2 with
  | .file (.text s) => return s
  | .file (.binary _) => throw .notText
  | .dir _ => throw .isDirectory

/-- The names in a directory, in the order of their code points. -/
def namesIn (t : FileTree) (p : Path) : List String :=
  match t.locate p with
  | .ok (_, .dir entries) => Dict.keys entries
  | _ => []

def put (t : FileTree) (place : List String) (n : Node) : FileTree :=
  { t with root := Node.put n place t.root }

def erase (t : FileTree) (place : List String) : FileTree :=
  { t with root := t.root.erase place }

/-- The place that a path names from the place `here`, whatever is there. -/
def namedPlace (here : List String) (p : Path) : List String :=
  p.components.foldl (fun here c ↦ match c with
    | .root => []
    | .here => here
    | .up => here.dropLast
    | .name s => here ++ [s]) here

/-- The tree with what stands at the given paths, the later ones over the earlier ones. -/
def ofNodes (home : List String) (nodes : List (Path × Node)) : FileTree :=
  nodes.foldl (fun t (p, n) ↦ t.put (namedPlace home p) n)
    ⟨Node.put (.dir []) home (.dir []), home⟩

/-- The files of a tree that are new or have another content than before. -/
def changes (before after : FileTree) : List (List String × Content) :=
  after.root.files.filter fun (place, content) ↦
    match before.root.at? place with
    | some (.file old) => decide (old ≠ content)
    | _ => true

/-- Changes to a tree; those made before a fault stay. -/
abbrev Change := ExceptT FileFault (StateM FileTree)

/-- The place above the last component of a path, and the name of that component. -/
def placeAbove (t : FileTree) (p : Path) : Except FileFault (List String × String) := do
  match p.components.reverse with
  | .name s :: above =>
    let place ← t.walk t.home above.reverse
    match t.root.at? place with
    | some (.dir _) => return (place, s)
    | some (.file _) => throw .notDirectory
    | none => throw .notFound
  | above =>
    let _ ← t.walk t.home above.reverse
    throw .alreadyExists

def makeDir (p : Path) : Change Unit := do
  let t ← get
  let (place, name) ← t.placeAbove p
  if (t.root.at? (place ++ [name])).isSome then throw .alreadyExists
  set (t.put (place ++ [name]) (.dir []))

/-- A directory made with the directories above it, of which there are at most `n`. One that
exists is left alone. -/
def makeDirsWithin : Nat → Path → Change Unit
  | n, p => do
    let unlessThere (fault : FileFault) : Change Unit := do
      if !(← get).isDir p then throw fault
    if p.text.isEmpty then return ()
    try makeDir p
    catch
      | .notFound =>
        match n, p.parent with
        | n + 1, some above =>
          makeDirsWithin n above
          try makeDir p catch fault => unlessThere fault
        | _, _ => throw .noTree
      | fault => unlessThere fault

def makeDirs (p : Path) : Change Unit := makeDirsWithin p.components.length p

def writeText (p : Path) (s : String) : Change Unit := do
  let t ← get
  match t.placeAbove p with
  | .ok (place, name) =>
    if lastPiece p = ['.'] then let _ ← t.locate p
    if meansDirectory p then throw .isDirectory
    match t.root.at? (place ++ [name]) with
    | some (.dir _) => throw .isDirectory
    | _ => set (t.put (place ++ [name]) (.file (.text s)))
  | .error .alreadyExists => throw .isDirectory
  | .error fault => throw fault

/-- A text written to a file, in directories that are made as needed. -/
def save (p : Path) (s : String) : Change Unit := do
  match p.parent with
  | some above => makeDirs above
  | none => pure ()
  writeText p s

end FileTree

end GoOpenApi
