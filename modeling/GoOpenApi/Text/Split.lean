import GoOpenApi.Text.Blank

/-!
Cutting texts at separators and joining them again.
-/

namespace GoOpenApi.Text

/-- The pieces between the members that satisfy `p`; one more than there are such members. -/
def splitList (p : Char → Bool) : List Char → List (List Char)
  | [] => [[]]
  | c :: cs =>
    if p c then [] :: splitList p cs
    else match splitList p cs with
      | [] => [[c]]
      | piece :: pieces => (c :: piece) :: pieces

theorem splitList_ne_nil (p : Char → Bool) (cs : List Char) : splitList p cs ≠ [] := by
  induction cs with
  | nil => simp [splitList]
  | cons c cs ih =>
    simp only [splitList]
    split
    · simp
    · split <;> simp

/-- The pieces of a text between the occurrences of `sep`. -/
def split (sep : Char) (s : String) : List String :=
  (splitList (· == sep) s.toList).map String.ofList

def join (sep : String) (pieces : List String) : String := sep.intercalate pieces

/-- What stands before and after the first member that satisfies `p`. -/
def cutList (p : Char → Bool) : List Char → Option (List Char × List Char)
  | [] => none
  | c :: cs =>
    if p c then some ([], cs) else (cutList p cs).map fun (before, after) ↦ (c :: before, after)

/-- What stands before and after the first `sep`. -/
def cut (sep : Char) (s : String) : Option (String × String) :=
  (cutList (· == sep) s.toList).map fun (a, b) ↦ (String.ofList a, String.ofList b)

/-- What stands before and after the last `sep`. -/
def cutLast (sep : Char) (s : String) : Option (String × String) :=
  (cutList (· == sep) s.toList.reverse).map fun (a, b) ↦
    (String.ofList b.reverse, String.ofList a.reverse)

/-- What stands before and after the first blank. -/
def cutBlank (s : String) : Option (String × String) :=
  (cutList isBlank s.toList).map fun (a, b) ↦ (String.ofList a, String.ofList b)

/-- The rest of a list that begins with `head`. -/
def dropHead (head cs : List Char) : Option (List Char) :=
  if head.isPrefixOf cs then some (cs.drop head.length) else none

def dropStart? (head s : String) : Option String :=
  (dropHead head.toList s.toList).map String.ofList

/-- What precedes `tail` in a text that ends with it. -/
def dropEnd? (tail s : String) : Option String :=
  (dropHead tail.toList.reverse s.toList.reverse).map fun cs ↦ String.ofList cs.reverse

/-- The text before the first `mark`, or all of it. -/
def beforeList (mark : List Char) : List Char → List Char
  | [] => []
  | c :: cs => if mark.isPrefixOf (c :: cs) then [] else c :: beforeList mark cs

/-- What stands before and after the first occurrence of `mark`. -/
def cutMark (mark s : String) : Option (String × String) :=
  let before := beforeList mark.toList s.toList
  (dropHead mark.toList (s.toList.drop before.length)).map fun after ↦
    (String.ofList before, String.ofList after)

/-- The maximal pieces without blanks. -/
def words (s : String) : List String :=
  ((splitList isBlank s.toList).filter (!·.isEmpty)).map String.ofList

/-- A line without the carriage return that may end it. -/
def withoutReturn (cs : List Char) : List Char :=
  match cs.getLast? with
  | some '\r' => cs.dropLast
  | _ => cs

/-- The lines of a text. A line feed ends a line, and a carriage return just before it is
dropped; an empty rest after the last line feed is no line. -/
def linesList (cs : List Char) : List (List Char) :=
  match (splitList (· == '\n') cs).reverse with
  | [] => []
  | last :: ended =>
    (ended.map withoutReturn).reverse ++ (if last.isEmpty then [] else [last])

def lines (s : String) : List String := (linesList s.toList).map String.ofList

end GoOpenApi.Text
