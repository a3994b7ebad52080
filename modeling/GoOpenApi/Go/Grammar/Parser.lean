import GoOpenApi.Go.Docs

/-!
Parsers over tokens. A parser knows whether the end of a line ends the construct it reads: inside
brackets and in unfinished constructs line ends mean nothing, elsewhere they stand for a semicolon.
-/

namespace GoOpenApi.Go

/-- Reads a value from the tokens that come next and returns the tokens after it. The flag says
whether a line end stops what could go on. -/
def Parser (α : Type) := Bool → List Token → Option (α × List Token)

namespace Parser

variable {α β : Type}

def pure (a : α) : Parser α := fun _ ts ↦ some (a, ts)

def bind (p : Parser α) (f : α → Parser β) : Parser β := fun line ts ↦
  match p line ts with
  | some (a, rest) => f a line rest
  | none => none

instance : Monad Parser where
  pure := Parser.pure
  bind := Parser.bind

def fail : Parser α := fun _ _ ↦ none

/-- The first of two parsers that reads something. -/
def orElse (p : Parser α) (q : Unit → Parser α) : Parser α := fun line ts ↦
  match p line ts with
  | some r => some r
  | none => q () line ts

instance : OrElse (Parser α) := ⟨orElse⟩

/-- Reads with another rule for line ends. -/
def within (line : Bool) (p : Parser α) : Parser α := fun _ ts ↦ p line ts

/-- The next token, which is left where it is. -/
def peek : Parser Token := fun _ ts ↦
  match ts with
  | t :: _ => some (t, ts)
  | [] => none

/-- The next token, if `f` takes it. -/
def accept (f : Token → Option α) : Parser α := fun _ ts ↦
  match ts with
  | t :: rest => (f t).map (·, rest)
  | [] => none

def lexeme (l : Lexeme) : Parser Token := accept fun t ↦ if t.lexeme = l then some t else none

def symbol (s : String) : Parser Unit := do let _ ← lexeme (.symbol s)

def keyword (s : String) : Parser Unit := do let _ ← lexeme (.word s)

/-- A word in a place where no keyword may stand. -/
def anyWord : Parser String := accept fun t ↦
  match t.lexeme with
  | .word w => some w
  | _ => none

/-- Words that begin a type. -/
def typeKeywords : List String := ["struct", "interface", "map", "chan", "func"]

/-- A word in a place where a type may stand too. -/
def identifier : Parser String := accept fun t ↦
  match t.lexeme with
  | .word w => if typeKeywords.contains w then none else some w
  | _ => none

def stringLiteral : Parser String := accept fun t ↦
  match t.lexeme with
  | .string s => some s
  | _ => none

/-- Something that may go on, unless the line ends before it. -/
def optional (p : Parser α) : Parser (Option α) := fun line ts ↦
  match ts with
  | t :: _ =>
    if line && t.newline then some (none, ts)
    else match p line ts with
      | some (a, rest) => some (some a, rest)
      | none => some (none, ts)
  | [] => some (none, ts)

/-- At most as many as the given tokens. -/
def manyWithin (p : Parser α) : List Token → Parser (List α)
  | [] => pure []
  | _ :: fuel => do
    match ← optional p with
    | some a => return a :: (← manyWithin p fuel)
    | none => return []

/-- As many as can be read. -/
def many (p : Parser α) : Parser (List α) := fun line ts ↦ manyWithin p ts line ts

/-- One or more with commas between them. -/
def commaList (p : Parser α) : Parser (List α) := do
  let first ← p
  return first :: (← many (do symbol ","; p))

/-- One or more with commas between them and perhaps one at the end. -/
def commaListEnded (p : Parser α) : Parser (List α) := do
  let items ← commaList p
  let _ ← optional (symbol ",")
  return items

/-- What stands between two brackets. -/
def between (opening closing : String) (p : Parser α) : Parser α := do
  symbol opening
  let a ← within false p
  symbol closing
  return a

/-- What stands between two brackets, where nothing may stand. -/
def betweenOrNone (opening closing : String) (p : Parser (List α)) : Parser (List α) :=
  between opening closing do return (← optional p).getD []

/-- Any number with commas between them, and perhaps one more comma. -/
def looseList (p : Parser α) : Parser (List α) := do
  let items ← optional (commaList p)
  let _ ← optional (symbol ",")
  return items.getD []

/-- The next token must be one of the symbols; it is left where it is. -/
def before (symbols : List String) : Parser Unit := do
  match (← peek).lexeme with
  | .symbol s => if symbols.contains s then return () else fail
  | _ => fail

/-- The tokens that a parser takes. -/
def spanned (p : Parser α) : Parser (List Token) := fun line ts ↦
  match p line ts with
  | some (_, rest) => some (ts.take (ts.length - rest.length), rest)
  | none => none

/-- The end of a member of a list: a semicolon, whose comments are siblings of the members, or
the end of a line. -/
def terminator : Parser (List Comment) := fun _ ts ↦
  match ts with
  | t :: rest =>
    if t.lexeme = .symbol ";" then some (t.comments, rest)
    else if t.newline || t.lexeme = .eof then some ([], ts)
    else none
  | [] => none

/-- A member with the comments before it. -/
def sibling (p : Parser α) : Parser (List (Sibling α)) := do
  let first ← peek
  let a ← p
  let next ← peek
  return first.comments.map .comment ++ [.node first.row next.lastRow a]

/-- Members up to the closing bracket, which is left where it is, but at most as many as the
given tokens. The last one needs no terminator unless `ended` is set. -/
def membersWithin (closing : String) (ended : Bool) (p : Parser α) :
    List Token → Parser (List (Sibling α))
  | [] => fail
  | _ :: fuel => do
    if (← peek).lexeme = .symbol closing then return []
    let member ← sibling p
    if !ended && (← peek).lexeme = .symbol closing then return member
    let comments ← terminator
    return member ++ comments.map .comment ++ (← membersWithin closing ended p fuel)

/-- Members between brackets, each on lines of its own or set off by semicolons. -/
def members (opening closing : String) (ended : Bool) (p : Parser α) :
    Parser (List (Sibling α)) := do
  symbol opening
  let siblings ← within true fun line ts ↦ membersWithin closing ended p ts line ts
  symbol closing
  return siblings

end Parser

end GoOpenApi.Go
