import GoOpenApi.Go.SourceText
import GoOpenApi.Module.Layout

/-!
Finding declarations. The directories of a package are searched in the order of the steps, the
files of each in the order of their names, and the first declaration of the name counts. Listings
and files that were read once are kept.
-/

namespace GoOpenApi

/-- What has been read so far, by the components of the path. A file keeps the path under which
it was first read. -/
structure Sources where
  files : Table (List Path.Component) (Path × SourceFile)
  listings : Table (List Path.Component) (List Path)

structure Located where
  declaration : Declaration
  file : Path
  step : SearchStep
  /-- The steps tried, the last of them with success. -/
  attempted : List SearchStep

/-- A file name of a package: it ends in `.go` behind something and is no test. -/
def isPackageFile (name : String) : Bool :=
  (Path.mk name).extension? == some "go" && (Text.dropEnd? "_test.go" name).isNone

namespace FileTree

/-- The Go files of a directory, in the order of their names. -/
def packageFiles (t : FileTree) (dir : Path) : Except FileFault (List Path) :=
  if t.isDir dir then
    .ok (((t.namesIn dir).filter isPackageFile).map (fun name ↦ dir.join ⟨name⟩) |>.filter t.isFile)
  else .error (.notPackage dir)

def source (t : FileTree) (p : Path) : Except Fault SourceFile :=
  match t.readText p with
  | .error fault => .error (.io fault)
  | .ok text => match SourceFile.parse? text with
    | some file => .ok file
    | none => .error (.malformed p)

end FileTree

namespace Sources

def empty : Sources := ⟨[], []⟩

variable (t : FileTree)

def listing (dir : Path) : Action Sources (List Path) := do
  match (← get).listings.find? dir.components with
  | some paths => return paths
  | none =>
    let paths ← Action.ofExcept (t.packageFiles dir)
    modify fun s ↦ { s with listings := s.listings.insert dir.components paths }
    return paths

def file (p : Path) : Action Sources (Path × SourceFile) := do
  match (← get).files.find? p.components with
  | some read => return read
  | none =>
    match t.source p with
    | .error fault => throw fault
    | .ok file =>
      modify fun s ↦ { s with files := s.files.insert p.components (p, file) }
      return (p, file)

def filesAt : List Path → Action Sources (List (Path × SourceFile))
  | [] => return []
  | p :: ps => do
    let read ← file t p
    return read :: (← filesAt ps)

def package (dir : Path) : Action Sources (List (Path × SourceFile)) := do
  filesAt t (← listing t dir)

/-- The first declaration of a name in the files of a list; the files after it are not read. -/
def searchFiles (name : String) : List Path → Action Sources (Option (Declaration × Path))
  | [] => return none
  | p :: ps => do
    match (← file t p).2.find? name with
    | some d => return some (d, p)
    | none => searchFiles name ps

def searchDir (dir : Path) (name : String) : Action Sources (Option (Declaration × Path)) := do
  if t.isDir dir then searchFiles t name (← listing t dir) else return none

/-- The search over the remaining steps after those tried. -/
def searchSteps (l : Layout) (name package : String) (tried : List SearchStep) :
    List SearchStep → Action Sources (Option Located)
  | [] => return none
  | step :: steps => do
    let attempted := tried ++ [step]
    match l.candidate? step package with
    | none => searchSteps l name package attempted steps
    | some dir =>
      match ← (try searchDir t dir name catch fault => throw (.search package name fault)) with
      | some (declaration, file) => return some ⟨declaration, file, step, attempted⟩
      | none => searchSteps l name package attempted steps

/-- The declaration of a name that is used in a package. -/
def locate (l : Layout) (name package : String) : Action Sources (Option Located) :=
  searchSteps t l name package [] SearchStep.all

end Sources

end GoOpenApi
