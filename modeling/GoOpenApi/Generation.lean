import GoOpenApi.CommandLine.Options
import GoOpenApi.Document.Builder
import GoOpenApi.Document.Codec
import GoOpenApi.Service.Codec
import GoOpenApi.Service.Load

/-!
A run: the services of a directory, the document made from them, and the files written. Nothing
is written before all texts are there.
-/

namespace GoOpenApi

inductive RunFault where
  | noServicesPath (services : Path)
  | noServicesDir (services : Path)
  | noRootDir (root : Path)
  | layout (root : Path) (cause : FileFault)
  | load (services : Path) (cause : Fault)
  /-- The directory has no services. -/
  | noServices (services : Path)
  | document (service : String) (cause : Fault)
  | write (file : Path) (cause : FileFault)

namespace RunFault

/-- The message and those of the causes, outermost first. -/
def chain : RunFault → List String
  | noServicesPath services => ["Services path does not exist: " ++ services.text]
  | noServicesDir services => ["Services path is not a directory: " ++ services.text]
  | noRootDir root => ["Module root is not a directory: " ++ root.text]
  | layout root cause => ("Failed to read module layout of " ++ root.text) :: (Fault.io cause).chain
  | load services cause => ("Failed to load services from " ++ services.text) :: cause.chain
  | noServices services => ["No service interfaces found in " ++ services.text]
  | document service cause => ("Failed to document service " ++ service) :: cause.chain
  | write file cause => ("Failed to write " ++ file.text) :: (Fault.io cause).chain

def message (fault : RunFault) : String := Text.join ": " fault.chain

end RunFault

/-- What a run makes, before anything is written. -/
structure Generation where
  services : List Service
  document : Document

namespace CommandLine.Options

variable (o : Options)

/-- The directories that the options name are there. -/
def check (files : FileTree) : Except RunFault Unit := do
  if !files.doesExist o.services then throw (.noServicesPath o.services)
  if !files.isDir o.services then throw (.noServicesDir o.services)
  match o.root? with
  | some root => if !files.isDir root then throw (.noRootDir root)
  | none => return ()

/-- The root of the module: the one given, the nearest one above the services, or the services
themselves. -/
def moduleRoot (files : FileTree) : Path :=
  o.root?.getD ((Layout.findRoot? files o.services).getD o.services)

def layout (files : FileTree) (env : Environment) : Except RunFault Layout :=
  match Layout.discover files env (o.moduleRoot files) with
  | .ok l => .ok { l with vendorDir := o.vendor?.getD l.vendorDir }
  | .error cause => .error (.layout (o.moduleRoot files) cause)

end CommandLine.Options

namespace Generation

/-- The services added to the document one after the other. -/
def addServices (p : Project) : List Service → Builder × Generator →
    Except RunFault (Builder × Generator)
  | [], state => .ok state
  | s :: rest, state =>
    match Builder.addService p s state with
    | (.ok _, state) => addServices p rest state
    | (.error cause, _) => .error (.document s.name cause)

/-- The services and the document that the options ask for. -/
def generate (files : FileTree) (env : Environment) (o : CommandLine.Options) :
    Except RunFault Generation := do
  let p := Project.of files (← o.layout files env)
  match Service.load p o.services o.interfaces .empty with
  | (.error cause, _) => throw (.load o.services cause)
  | (.ok [], _) => throw (.noServices o.services)
  | (.ok services, tables) =>
    let builder := Builder.initial.withDirectives (Service.allDirectives services)
    let (builder, g) ← addServices p services (builder, ⟨tables, .empty⟩)
    return ⟨services, builder.document g.registry⟩

def outputs (g : Generation) (o : CommandLine.Options) : List (Path × String) :=
  (o.output, g.document.render o.format) ::
    (o.model?.map fun file ↦ (file, Service.renderAll g.services)).toList

end Generation

/-- A computation on files that stops at the first fault; what was written before it stays. -/
abbrev Run := ExceptT RunFault (StateM FileTree)

namespace Run

def write : List (Path × String) → Run Unit
  | [] => return ()
  | (file, text) :: rest => do
    match FileTree.save file text (← get) with
    | (.ok _, files) => set files; write rest
    | (.error cause, files) => set files; throw (.write file cause)

/-- The run for options that have been checked. -/
def produce (env : Environment) (o : CommandLine.Options) : Run Unit := do
  match Generation.generate (← get) env o with
  | .ok g => write (g.outputs o)
  | .error fault => throw fault

def perform (env : Environment) (o : CommandLine.Options) : Run Unit := do
  match o.check (← get) with
  | .ok _ => produce env o
  | .error fault => throw fault

end Run

end GoOpenApi
