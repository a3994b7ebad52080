import GoOpenApi.Files.Tree

/-!
What can go wrong while services are read.
-/

namespace GoOpenApi

inductive Fault where
  | io (fault : FileFault)
  /-- A Go file has a syntax error. -/
  | malformed (file : Path)
  /-- A file that was searched for a name of a package could not be used. -/
  | search (package name : String) (cause : Fault)
  /-- A type contains itself without a name in between. -/
  | endless

namespace Fault

def message : Fault → String
  | io fault => "IO error: " ++ fault.message
  | malformed file => "parse error in " ++ file.text ++ ": syntax error"
  | search package name cause =>
    "failed to locate " ++ name ++ " in " ++ package ++ ": " ++ cause.message
  | endless => "a type contains itself without end"

/-- The message and those of the causes, outermost first. -/
def chain : Fault → List String
  | io fault => [(io fault).message, fault.message]
  | search package name cause => (search package name cause).message :: cause.chain
  | fault => [fault.message]

end Fault

/-- A computation that may fail. What it changed in the state before a fault stays. -/
abbrev Action (σ : Type) := ExceptT Fault (StateM σ)

namespace Action

variable {σ τ α : Type}

/-- An action on a part of the state. -/
def focus (get : σ → τ) (set : τ → σ → σ) (a : Action τ α) : Action σ α :=
  fun s ↦ let (r, t) := a (get s); (r, set t s)

def ofExcept (r : Except FileFault α) : Action σ α :=
  match r with
  | .ok a => pure a
  | .error fault => throw (.io fault)

end Action

end GoOpenApi
