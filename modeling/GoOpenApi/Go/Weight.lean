import GoOpenApi.Go.SourceText

/-!
How much there is in types and declarations. A weight bounds the number of names, since each of
them is a type or a declaration of its own.
-/

namespace GoOpenApi

mutual

/-- The number of types in a type. -/
def GoType.weight : GoType → Nat
  | .named _ _ => 1
  | .pointer next | .slice next | .array _ next | .ellipsis next => next.weight + 1
  | .imported _ next => next.weight + 1
  | .map key value => key.weight + value.weight + 1
  | .interface methods => Method.weights methods + 1
  | .struct fields => Field.weights fields + 1

def Field.weights : List Field → Nat
  | [] => 0
  | ⟨_, type, _, _⟩ :: fields => type.weight + Field.weights fields

def Method.weights : List Method → Nat
  | [] => 0
  | ⟨_, _, args, results⟩ :: methods =>
    Field.weights args + Field.weights results + Method.weights methods

end

def totalWeight (weight : α → Nat) : List α → Nat
  | [] => 0
  | a :: as => weight a + totalWeight weight as

/-- One for the declared name, and the number of types in what it stands for. -/
def Declaration.weight : Declaration → Nat
  | .interface d => Method.weights d.methods + totalWeight GoType.weight d.embedded + 1
  | .struct d => Field.weights d.fields + 1
  | .alias d => d.target.weight + 1

def SourceFile.weight (file : SourceFile) : Nat :=
  totalWeight Declaration.weight file.declarations

end GoOpenApi
