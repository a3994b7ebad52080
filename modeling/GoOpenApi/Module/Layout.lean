import GoOpenApi.Fault
import GoOpenApi.Module.GoMod

/-!
Where packages are. An import path is mapped to a directory in four steps: as a directory below
the root, through `go.mod`, below the vendor directory, and without the leading segments that
belong to the module.
-/

namespace GoOpenApi

/-- The variables that tell where the module cache is. -/
structure Environment where
  goModCache : Option String := none
  goPath : Option String := none
  home : Option String := none

/-- The directory of downloaded modules. Of several directories in `GOPATH` the first counts. -/
def Environment.moduleCache? (e : Environment) : Option Path :=
  match e.goModCache.filter (!·.isEmpty) with
  | some dir => some ⟨dir⟩
  | none =>
    match e.goPath.filter (!·.isEmpty) with
    | some dirs => some (((Path.mk ((Text.split ':' dirs).headD "")).join ⟨"pkg"⟩).join ⟨"mod"⟩)
    | none => e.home.map fun dir ↦ (((Path.mk dir).join ⟨"go"⟩).join ⟨"pkg"⟩).join ⟨"mod"⟩

/-- The steps of the search for a package, in order. -/
inductive SearchStep where
  | packageDir
  | moduleMapping
  | vendor
  | localPrefix
  deriving DecidableEq, Repr

namespace SearchStep

def all : List SearchStep := [packageDir, moduleMapping, vendor, localPrefix]

def name : SearchStep → String
  | packageDir => "PackageDir"
  | moduleMapping => "ModuleMapping"
  | vendor => "Vendor"
  | localPrefix => "LocalPrefix"

def label : SearchStep → String
  | packageDir => "package directory"
  | moduleMapping => "module mapping"
  | vendor => "vendor"
  | localPrefix => "local prefix"

def ofName? (s : String) : Option SearchStep := all.find? (·.name == s)

end SearchStep

structure Layout where
  root : Path
  module? : Option String
  requires : List Requirement
  replaces : List (String × Path)
  vendorDir : Path
  moduleCache? : Option Path

namespace Layout

/-- A layout without module information. -/
def bare (env : Environment) (root : Path) : Layout :=
  ⟨root, none, [], [], root.join ⟨"vendor"⟩, env.moduleCache?⟩

def ofGoMod (env : Environment) (root : Path) (m : GoMod) : Layout :=
  { bare env root with
    module? := m.module?
    requires := m.requires
    replaces := m.replaces.map fun (module, dir) ↦ (module, root.join ⟨dir⟩) }

def discover (files : FileTree) (env : Environment) (root : Path) : Except FileFault Layout :=
  let goMod := root.join ⟨"go.mod"⟩
  if files.isFile goMod then (files.readText goMod).map fun text ↦ ofGoMod env root (.parse text)
  else .ok (bare env root)

/-- The nearest directory from `start` upwards that holds a `go.mod`. -/
def findRoot? (files : FileTree) (start : Path) : Option Path :=
  (files.canonical start).ancestors.find? fun dir ↦ files.isFile (dir.join ⟨"go.mod"⟩)

def importPathOf (l : Layout) (files : FileTree) (dir : Path) : String :=
  let dir := files.canonical dir
  match Path.below? (files.canonical l.vendorDir) dir with
  | some below => Path.slashed below
  | none =>
    match Path.below? (files.canonical l.root) dir with
    | some below =>
      let below := Path.slashed below
      match l.module? with
      | some module => if below.isEmpty then module else module ++ "/" ++ below
      | none => below
    | none => Path.slashed dir.components

/-- What is left of a package path behind a module path that ends with a segment of it. -/
def belowModule? (module package : String) : Option String :=
  if package = module then some ""
  else (Text.dropStart? module package).bind (Text.dropStart? "/")

/-- The member with the longest path; of equal ones the last. -/
def longest (path : α → String) : List α → Option α :=
  List.foldl (fun best a ↦ match best with
    | some b => if (path a).utf8ByteSize < (path b).utf8ByteSize then some b else some a
    | none => some a) none

/-- A module path in the cache: every upper-case letter is an exclamation mark and its lower
case. -/
def escapeList : List Char → List Char
  | [] => []
  | c :: cs => if c.isUpper then '!' :: c.toLower :: escapeList cs else c :: escapeList cs

def escape (path : String) : String := String.ofList (escapeList path.toList)

def cachedDir (cache : Path) (r : Requirement) : Path :=
  cache.join ⟨escape r.path ++ "@" ++ r.version⟩

def packageDir (l : Layout) (package : String) : Path :=
  if (Path.mk package).isAbsolute then ⟨package⟩ else l.root.joinSegments package

/-- The directory that `go.mod` gives: in the module itself, in the longest module that is
replaced, else in the longest one that is required. -/
def moduleDir? (l : Layout) (package : String) : Option Path :=
  match l.module?.bind fun module ↦ belowModule? module package with
  | some below => some (l.root.joinSegments below)
  | none =>
    let covers (module : String) := (belowModule? module package).isSome
    match longest (·.1) (l.replaces.filter fun r ↦ covers r.1) with
    | some (module, dir) => (belowModule? module package).map dir.joinSegments
    | none => do
      let r ← longest (·.path) (l.requires.filter fun r ↦ covers r.path)
      let cache ← l.moduleCache?
      let below ← belowModule? r.path package
      return (cachedDir cache r).joinSegments below

/-- The directory without as many leading segments as the module path has. -/
def localDir? (l : Layout) (package : String) : Option Path := do
  let segments (s : String) := (Text.split '/' s).filter (!·.isEmpty)
  let skip := (segments (← l.module?)).length
  if (segments package).length ≤ skip then none
  else return l.root.joinSegments (Text.join "/" ((segments package).drop skip))

/-- The directory to which a step maps a package, if it applies. -/
def candidate? (l : Layout) : SearchStep → String → Option Path
  | .packageDir, package => some (l.packageDir package)
  | .moduleMapping, package => l.moduleDir? package
  | .vendor, package => some (l.vendorDir.joinSegments package)
  | .localPrefix, package => l.localDir? package

end Layout

end GoOpenApi
