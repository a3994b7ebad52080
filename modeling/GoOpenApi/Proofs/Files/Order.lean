import GoOpenApi.Files.Tree
import GoOpenApi.Proofs.Dict

/-!
Every tree that is built from paths keeps the entries of a directory in the order of their names.
-/

namespace GoOpenApi

namespace Node

/-- The entries of every directory stand in the order of their names. -/
inductive Ordered : Node → Prop
  | file (content : Content) : Ordered (.file content)
  | dir {entries : List (String × Node)} (order : Dict.Ordered entries)
      (below : ∀ entry ∈ entries, Ordered entry.2) : Ordered (.dir entries)

theorem Ordered.emptyDir : Ordered (.dir []) := .dir Dict.ordered_nil nofun

theorem Ordered.put {new n : Node} (hn : new.Ordered) (h : n.Ordered) (place : List String) :
    (put new place n).Ordered := by
  induction place generalizing n with
  | nil => exact hn
  | cons name place ih =>
    cases h with
    | file content =>
      refine .dir (List.pairwise_singleton _ _) fun entry he ↦ ?_
      rw [List.mem_singleton.mp he]
      exact ih .emptyDir
    | @dir entries order below =>
      refine .dir (order.insert _ _) fun entry he ↦ ?_
      rcases Dict.mem_insert he with rfl | he
      · refine ih ?_
        cases hf : Dict.find? name entries with
        | none => exact .emptyDir
        | some n => exact below _ (Dict.mem_of_find? hf)
      · exact below _ he

theorem Ordered.at? {n n' : Node} (h : n.Ordered) {place : List String}
    (hp : n.at? place = some n') : n'.Ordered := by
  induction place generalizing n with
  | nil =>
    cases hp
    exact h
  | cons name place ih =>
    cases h with
    | file content => simp [Node.at?] at hp
    | dir order below =>
      obtain ⟨n, hn, hp⟩ := Option.bind_eq_some_iff.mp hp
      exact ih (below _ (Dict.mem_of_find? hn)) hp

end Node

namespace FileTree

variable {t : FileTree}

def Ordered (t : FileTree) : Prop := t.root.Ordered

theorem Ordered.put (h : t.Ordered) {n : Node} (hn : n.Ordered) (place : List String) :
    (t.put place n).Ordered := Node.Ordered.put hn h place

theorem ordered_ofNodes (home : List String) (nodes : List (Path × Node))
    (h : ∀ entry ∈ nodes, entry.2.Ordered) : (ofNodes home nodes).Ordered :=
  List.foldlRecOn (motive := Ordered) nodes _ (Node.Ordered.put .emptyDir .emptyDir _)
    fun _ ht entry hm ↦ ht.put (h entry hm) _

end FileTree

end GoOpenApi
