import GoOpenApi.Generation

/-!
The command. The names of the files to look at are read from standard input, one a line, so that
`find . -name '*.go' -o -name go.mod` chooses them; the files that a run writes are written, and
faults are reported with their causes.
-/

namespace GoOpenApi

def usage : String := "Usage: go-openapi [OPTIONS] SERVICES_PATH < FILE_NAMES

Makes an OpenAPI document from the service interfaces of a Go package.

  -o, --output FILE     the document (default: SERVICES_PATH/swagger.yaml)
  -f, --format FORMAT   yaml or json (default: by the name of the document)
      --root DIR        the directory of go.mod (default: the nearest one above)
      --vendor DIR      the vendor directory (default: vendor below the root)
      --iface NAME      only the interface of this name; can be repeated
      --model FILE      also write the services as JSON
  -v, --verbose         report what was written
  -h, --help            show this text
  -V, --version         show the version"

def version : String := "go-openapi 1.0.0"

def CommandLine.UsageFault.message : UsageFault → String
  | .unknownArgument => "there is an argument that is not known"
  | .invalidValue => "a value is missing or not allowed"
  | .repeated => "an argument is given twice that can be given once"
  | .missingArgument => "SERVICES_PATH is missing"
  | .unwantedValue => "a switch is given a value"
  | .help => usage
  | .version => GoOpenApi.version

/-- The lines of a stream. -/
partial def linesOf (input : IO.FS.Stream) : IO (List String) := do
  let line ← input.getLine
  if line.isEmpty then return []
  let rest ← linesOf input
  let name := Text.trim line
  return if name.isEmpty then rest else name :: rest

def readNode (name : String) : IO (Path × Node) := do
  return (⟨name⟩, .file (.ofBytes (← IO.FS.readBinFile name)))

def environment : IO Environment := do
  return ⟨← IO.getEnv "GOMODCACHE", ← IO.getEnv "GOPATH", ← IO.getEnv "HOME"⟩

def writeChange (isVerbose : Bool) : List String × Content → IO Unit
  | (place, .text s) => do
    let file := (FileTree.pathOf place).text
    IO.FS.createDirAll (FileTree.pathOf place.dropLast).text
    IO.FS.writeFile file s
    if isVerbose then IO.eprintln ("wrote " ++ file)
  | (_, .binary _) => return ()

def report (chain : List String) : IO Unit := do
  IO.eprintln ("Error: " ++ Text.join "\n  caused by: " chain)

end GoOpenApi

open GoOpenApi in
def main (args : List String) : IO UInt32 := do
  match CommandLine.parse args with
  | .error fault =>
    if fault = .help || fault = .version then
      IO.println fault.message
      return 0
    else
      IO.eprintln ("error: " ++ fault.message)
      return 2
  | .ok o =>
    let home := FileTree.namedPlace [] ⟨(← IO.getEnv "PWD").getD "/"⟩
    let nodes ← (← linesOf (← IO.getStdin)).mapM readNode
    let files := FileTree.ofNodes home nodes
    let (result, after) := Run.perform (← environment) o files
    (files.changes after).forM (writeChange o.verbose)
    match result with
    | .ok _ => return 0
    | .error fault =>
      report fault.chain
      return 1
