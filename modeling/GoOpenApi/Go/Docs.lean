import GoOpenApi.Go.Token
import GoOpenApi.Text.Split

/-!
Doc comments. Inside a file, a group of types or an interface the comments and the other members
are siblings, and the docs of a member are read off the siblings before it.
-/

namespace GoOpenApi.Go

/-- A comment, or a member with the rows on which it begins and ends. -/
inductive Sibling (α : Type u) where
  | comment (c : Comment)
  | node (row endRow : Nat) (value : α)

/-- A line of a comment between slashes and stars, without the star that may begin it. -/
def starredLine (line : List Char) : List Char :=
  match Text.trimList line with
  | '*' :: cs => Text.trimList cs
  | cs => cs

def blockCommentBody (text : List Char) : List Char :=
  match Text.dropHead ['/', '*'] text with
  | some body => match Text.dropHead ['/', '*'] body.reverse with
    | some reversed => reversed.reverse
    | none => text
  | none => text

/-- The lines of a comment: one, perhaps empty, after two slashes; otherwise those that are not
empty. -/
def commentLines (text : List Char) : List (List Char) :=
  match Text.dropHead ['/', '/'] text with
  | some line => [Text.trimList line]
  | none => ((Text.linesList (blockCommentBody text)).map starredLine).filter (!·.isEmpty)

def Comment.lines (c : Comment) : List String := (commentLines c.text.toList).map String.ofList

/-- Whether a comment stands behind a member that ends on its row. -/
def Sibling.trails (c : Comment) : List (Sibling α) → Bool
  | .node _ endRow _ :: _ => endRow == c.row
  | _ => false

/-- The docs above `row`, where `before` are the siblings before, nearest first. A comment
belongs to them while no row is left out below it and it does not trail a member. -/
def docsAbove (row : Nat) : List (Sibling α) → List String
  | .comment c :: before =>
    if c.endRow + 1 < row || Sibling.trails c before then []
    else docsAbove c.row before ++ c.lines
  | _ => []

def membersFrom (before : List (Sibling α)) : List (Sibling α) → List (List String × α)
  | [] => []
  | .comment c :: after => membersFrom (.comment c :: before) after
  | .node row endRow value :: after =>
    (docsAbove row before, value) :: membersFrom (.node row endRow value :: before) after

def documented (siblings : List (Sibling α)) : List (List String × α) := membersFrom [] siblings

end GoOpenApi.Go
