import GoOpenApi.Go.Docs
import Mathlib.Data.List.Basic
import Mathlib.Data.List.Infix
import Mathlib.Tactic.Common

/-!
Which comments docs are made of. Among siblings the comments above a member are followed upwards
while no row is left out. The way ends at a comment that stands behind a member on its last row, but
only when nothing stands between the two: a second comment on that row is taken for docs.
-/

namespace GoOpenApi.Go

variable {α : Type}

/-- The comments that the docs above `row` are made of, in their order. -/
def docComments (row : Nat) : List (Sibling α) → List Comment
  | .comment c :: before =>
    if c.endRow + 1 < row || Sibling.trails c before then [] else docComments c.row before ++ [c]
  | _ => []

theorem docsAbove_eq (row : Nat) (before : List (Sibling α)) :
    docsAbove row before = (docComments row before).flatMap Comment.lines := by
  induction before generalizing row with
  | nil => rfl
  | cons s before ih =>
    cases s with
    | node => rfl
    | comment c =>
      rw [docsAbove, docComments]
      split
      · rfl
      · rw [List.flatMap_append, List.flatMap_singleton, ih]

theorem membersFrom_append (before as bs : List (Sibling α)) :
    membersFrom before (as ++ bs) =
      membersFrom before as ++ membersFrom (as.reverse ++ before) bs := by
  induction as generalizing before with
  | nil => rfl
  | cons s as ih =>
    cases s <;> simp [membersFrom, ih]

/-- The docs of a member are made of comments among the siblings before it. -/
theorem documented_append_node (before after : List (Sibling α)) (row endRow : Nat) (value : α) :
    documented (before ++ .node row endRow value :: after) =
      documented before ++ ((docComments row before.reverse).flatMap Comment.lines, value) ::
        membersFrom (.node row endRow value :: before.reverse) after := by
  rw [documented, membersFrom_append, List.append_nil, membersFrom, docsAbove_eq]
  rfl

theorem membersFrom_comments (before : List (Sibling α)) (cs : List Comment) :
    membersFrom before (cs.map .comment) = [] := by
  induction cs generalizing before with
  | nil => rfl
  | cons c cs ih => exact ih _

/-- From the comments down to `row` no row is left out. -/
def Adjoin : List Comment → Nat → Prop
  | [], _ => True
  | c :: cs, row => (cs.head?.map (·.row)).getD row ≤ c.endRow + 1 ∧ Adjoin cs row

theorem adjoin_concat {cs : List Comment} (hcs : cs ≠ []) {c : Comment} {row : Nat} :
    Adjoin (cs ++ [c]) row ↔ Adjoin cs c.row ∧ row ≤ c.endRow + 1 := by
  induction cs with
  | nil => exact absurd rfl hcs
  | cons d cs ih =>
    cases cs with
    | nil => simp [Adjoin]
    | cons e cs =>
      have h := ih (List.cons_ne_nil e cs)
      simp only [List.cons_append] at h ⊢
      rw [Adjoin, h, Adjoin.eq_2 _ d]
      simp [and_assoc]

section

variable {first last : Nat} {value : α} {above : List (Sibling α)}

/-- One step up from `row`, where comments stand behind a member. -/
theorem docComments_concat (cs : List Comment) (c : Comment) (row : Nat) :
    docComments row ((cs ++ [c]).reverse.map .comment ++ .node first last value :: above) =
      if c.endRow + 1 < row ∨ cs = [] ∧ c.row = last then []
      else
        docComments c.row (cs.reverse.map .comment ++ .node first last value :: above) ++ [c] := by
  have ht : Sibling.trails c (cs.reverse.map .comment ++ .node first last value :: above) ↔
      cs = [] ∧ c.row = last := by
    rcases cs.eq_nil_or_concat with rfl | ⟨cs, d, rfl⟩
    · simpa [Sibling.trails] using eq_comm
    · simp [Sibling.trails]
  rw [List.reverse_append, List.reverse_singleton, List.singleton_append, List.map_cons,
    List.cons_append, docComments]
  simp only [Bool.or_eq_true, decide_eq_true_eq, ht]

/-- Of the comments that stand behind a member, the docs of the next one have those from which no
row is left out, apart from the first one if it stands on the last row of the member. -/
theorem suffix_docComments_iff {before after : List Comment} {c : Comment} {row : Nat} :
    (c :: after) <:+ docComments row
        ((before ++ c :: after).reverse.map .comment ++ .node first last value :: above) ↔
      Adjoin (c :: after) row ∧ (before = [] → c.row ≠ last) := by
  induction after using List.reverseRecOn generalizing row with
  | nil =>
    rw [docComments_concat]
    split
    · rename_i h
      refine iff_of_false (by simp) ?_
      rintro ⟨ha, hb⟩
      rcases h with h | ⟨hbefore, hlast⟩
      · exact absurd ha.1 (by simpa using h)
      · exact hb hbefore hlast
    · rename_i h
      rw [not_or, not_lt] at h
      exact iff_of_true (List.suffix_append _ _) ⟨⟨h.1, trivial⟩, fun hb hl ↦ h.2 ⟨hb, hl⟩⟩
  | append_singleton after d ih =>
    rw [← List.cons_append, ← List.append_assoc, docComments_concat,
      adjoin_concat (List.cons_ne_nil c after)]
    split
    · rename_i h
      refine iff_of_false (by simp) ?_
      rintro ⟨⟨-, hd⟩, -⟩
      rcases h with h | ⟨hcs, -⟩
      · omega
      · simp at hcs
    · rename_i h
      rw [not_or, not_lt] at h
      rw [List.suffix_append_self_iff, ih, and_iff_left h.1]

theorem docComments_suffix (cs : List Comment) (row : Nat) :
    docComments row (cs.reverse.map .comment ++ .node first last value :: above) <:+ cs := by
  induction cs using List.reverseRecOn generalizing row with
  | nil => exact List.suffix_rfl
  | append_singleton cs c ih =>
    rw [docComments_concat]
    split
    · exact List.nil_suffix
    · exact List.suffix_append_self_iff.mpr (ih _)

/-- What stands between two members and becomes docs of the second. -/
theorem documented_between (above below : List (Sibling α)) (first last row endRow : Nat)
    (value member : α) (run : List Comment) :
    ∃ own others,
      documented (above ++ .node first last value ::
          (run.map .comment ++ .node row endRow member :: below)) =
        documented (above ++ [.node first last value]) ++
          (own.flatMap Comment.lines, member) :: others ∧
      own <:+ run ∧ ∀ before c after, run = before ++ c :: after →
        ((c :: after) <:+ own ↔ Adjoin (c :: after) row ∧ (before = [] → c.row ≠ last)) := by
  have hrun : documented (above ++ .node first last value :: run.map .comment) =
      documented (above ++ [.node first last value]) := by
    rw [← List.singleton_append, ← List.append_assoc, documented, membersFrom_append,
      membersFrom_comments, List.append_nil]
    rfl
  have hreverse : (above ++ Sibling.node first last value :: run.map .comment).reverse =
      run.reverse.map .comment ++ .node first last value :: above.reverse := by
    simp
  have hnode := documented_append_node (above ++ .node first last value :: run.map .comment) below
    row endRow member
  rw [hrun, hreverse, List.append_assoc, List.cons_append] at hnode
  refine ⟨_, _, hnode, docComments_suffix run row, ?_⟩
  rintro before c after rfl
  exact suffix_docComments_iff

end

end GoOpenApi.Go
