import GoOpenApi.Go.Weight
import GoOpenApi.Module.Sources

/-!
The files and the layout in which declarations are searched.
-/

namespace GoOpenApi

/-- The weight of a file as Go text. -/
def Content.weight : Content → Nat
  | .text s => totalWeight SourceFile.weight (SourceFile.parse? s).toList
  | .binary _ => 0

def FileTree.weight (t : FileTree) : Nat :=
  totalWeight (fun (_, content) ↦ content.weight) t.root.files

structure Project where
  files : FileTree
  layout : Layout
  /-- How much is declared in all files together. -/
  weight : Nat
  weight_eq : weight = files.weight

/-- A project with its weight, which reads every file once. -/
def Project.of (files : FileTree) (layout : Layout) : Project := ⟨files, layout, files.weight, rfl⟩

end GoOpenApi
