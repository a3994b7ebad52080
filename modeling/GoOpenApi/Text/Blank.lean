/-!
White space and trimming. Blank characters are those with the Unicode property `White_Space`;
`trim` removes them at both ends and nowhere else.
-/

namespace GoOpenApi.Text

def isBlank (c : Char) : Bool :=
  let n := c.toNat
  (9 ≤ n && n ≤ 13) || n == 0x20 || n == 0x85 || n == 0xA0 || n == 0x1680 ||
    (0x2000 ≤ n && n ≤ 0x200A) || n == 0x2028 || n == 0x2029 || n == 0x202F || n == 0x205F ||
    n == 0x3000

theorem isBlank_of_isWhitespace {c : Char} (h : c.isWhitespace) : isBlank c := by
  simp only [Char.isWhitespace, Bool.or_eq_true, decide_eq_true_eq] at h
  rcases h with ((rfl | rfl) | rfl) | rfl <;> decide

/-- The list without its last members that satisfy `p`. -/
def dropEndWhile (p : α → Bool) (cs : List α) : List α := (cs.reverse.dropWhile p).reverse

def trimList (cs : List Char) : List Char := dropEndWhile isBlank (cs.dropWhile isBlank)

/-- The text without blanks at its ends. -/
def trim (s : String) : String := String.ofList (trimList s.toList)

def trimStart (s : String) : String := String.ofList (s.toList.dropWhile isBlank)

/-- The text without any `c` at its ends. -/
def trimChar (c : Char) (s : String) : String :=
  String.ofList (dropEndWhile (· == c) (s.toList.dropWhile (· == c)))

def hasBlank (s : String) : Bool := s.toList.any isBlank

end GoOpenApi.Text
