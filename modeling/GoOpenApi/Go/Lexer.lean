import GoOpenApi.Text.IdentifierChar

/-!
The pieces of a Go text: blanks, line feeds, comments and lexemes. Each piece is the longest that
can be read where it stands, and the pieces together are the text.
-/

namespace GoOpenApi.Go

inductive Lexeme where
  /-- An identifier or a keyword. -/
  | word (text : String)
  | number (text : String)
  | rune (text : String)
  | string (text : String)
  /-- An operator or a bracket. -/
  | symbol (text : String)
  | eof
  deriving DecidableEq, Repr

def Lexeme.text : Lexeme → String
  | word t | number t | rune t | string t | symbol t => t
  | eof => ""

inductive Piece where
  | blank (c : Char)
  | lineFeed
  | comment (text : List Char)
  | lexeme (l : Lexeme)

namespace Lexer

def isHex (c : Char) : Bool := c.isDigit || ('a' ≤ c && c ≤ 'f') || ('A' ≤ c && c ≤ 'F')

def isOctal (c : Char) : Bool := '0' ≤ c && c ≤ '7'

def isBinary (c : Char) : Bool := c == '0' || c == '1'

/-- Digits with at most one underscore before each. -/
def moreDigits (p : Char → Bool) : List Char → List Char
  | '_' :: c :: cs => if p c then moreDigits p cs else '_' :: c :: cs
  | c :: cs => if p c then moreDigits p cs else c :: cs
  | [] => []

/-- What follows a digit and those after it. -/
def afterDigits (p : Char → Bool) : List Char → Option (List Char)
  | c :: cs => if p c then some (moreDigits p cs) else none
  | [] => none

/-- What follows one of the characters `cs`. -/
def afterOneOf (options : List Char) : List Char → Option (List Char)
  | c :: cs => if options.contains c then some cs else none
  | [] => none

def optionally (f : List Char → Option (List Char)) (cs : List Char) : List Char :=
  (f cs).getD cs

def afterUnderscore : List Char → List Char := optionally (afterOneOf ['_'])

def afterExponent (marks : List Char) (cs : List Char) : Option (List Char) := do
  let cs ← afterOneOf marks cs
  afterDigits Char.isDigit (optionally (afterOneOf ['+', '-']) cs)

/-- Whole numbers: decimal, octal with or without `o`, hexadecimal and binary. -/
def afterInt : List Char → List (Option (List Char))
  | '0' :: cs =>
    [some cs,
      afterDigits isOctal (afterUnderscore (optionally (afterOneOf ['o', 'O']) cs)),
      (afterOneOf ['x', 'X'] cs).bind fun cs ↦ afterDigits isHex (afterUnderscore cs),
      (afterOneOf ['b', 'B'] cs).bind fun cs ↦ afterDigits isBinary (afterUnderscore cs)]
  | c :: cs =>
    if c.isDigit then
      [some (optionally (fun cs ↦ afterDigits Char.isDigit (afterUnderscore cs)) cs)]
    else []
  | [] => []

def afterFloat (cs : List Char) : List (Option (List Char)) :=
  let exponent := optionally (afterExponent ['e', 'E'])
  let hexExponent := afterExponent ['p', 'P']
  let fraction := optionally (afterDigits Char.isDigit)
  let whole := afterDigits Char.isDigit cs
  let hex := (afterOneOf ['0'] cs).bind (afterOneOf ['x', 'X'])
  let hexWhole := hex.bind fun cs ↦ afterDigits isHex (afterUnderscore cs)
  [(whole.bind (afterOneOf ['.'])).map (exponent ∘ fraction),
    whole.bind (afterExponent ['e', 'E']),
    ((afterOneOf ['.'] cs).bind (afterDigits Char.isDigit)).map exponent,
    ((hexWhole.bind (afterOneOf ['.'])).map (optionally (afterDigits isHex))).bind hexExponent,
    hexWhole.bind hexExponent,
    ((hex.bind (afterOneOf ['.'])).bind (afterDigits isHex)).bind hexExponent]

/-- The shortest of the rests, which is what the longest reading leaves. -/
def shortest (rests : List (Option (List Char))) : Option (List Char) :=
  rests.foldl (fun best rest ↦
    match best, rest with
    | some b, some r => if r.length < b.length then some r else some b
    | none, r => r
    | b, none => b) none

/-- What follows the longest number. -/
def afterNumber (cs : List Char) : Option (List Char) :=
  let real := afterInt cs ++ afterFloat cs
  let imaginary := (afterDigits Char.isDigit cs :: real).map (·.bind (afterOneOf ['i']))
  shortest (real ++ imaginary)

/-- What follows the closing quote of a text between double quotes. -/
def afterString : List Char → Option (List Char)
  | '"' :: cs => some cs
  | '\\' :: 'x' :: a :: b :: cs => if isHex a && isHex b then afterString cs else none
  | '\\' :: 'u' :: a :: b :: c :: d :: cs =>
    if [a, b, c, d].all isHex then afterString cs else none
  | '\\' :: 'U' :: a :: b :: c :: d :: e :: f :: g :: h :: cs =>
    if [a, b, c, d, e, f, g, h].all isHex then afterString cs else none
  | '\\' :: c :: cs => if c == 'x' || c == 'u' || c == 'U' then none else afterString cs
  | '\n' :: _ => none
  | '\\' :: [] => none
  | _ :: cs => afterString cs
  | [] => none

/-- What follows the closing quote of a text between back quotes. -/
def afterRawString : List Char → Option (List Char)
  | c :: cs => if c == '\x60' then some cs else afterRawString cs
  | [] => none

def afterRuneEnd : List Char → Option (List Char) := afterOneOf ['\'']

/-- What follows a character between single quotes, from its content on. -/
def afterRune : List Char → Option (List Char)
  | '\\' :: 'x' :: a :: b :: cs => if isHex a && isHex b then afterRuneEnd cs else none
  | '\\' :: 'u' :: a :: b :: c :: d :: cs =>
    if [a, b, c, d].all isHex then afterRuneEnd cs else none
  | '\\' :: 'U' :: a :: b :: c :: d :: e :: f :: g :: h :: cs =>
    if [a, b, c, d, e, f, g, h].all isHex then afterRuneEnd cs else none
  | '\\' :: a :: cs =>
    if ['a', 'b', 'f', 'n', 'r', 't', 'v', '\\', '\'', '"'].contains a then afterRuneEnd cs
    else match cs with
      | b :: c :: cs => if [a, b, c].all isOctal then afterRuneEnd cs else none
      | _ => none
  | c :: cs => if c == '\'' || c == '\\' then none else afterRuneEnd cs
  | [] => none

def afterBlockComment : List Char → Option (List Char)
  | '*' :: '/' :: cs => some cs
  | _ :: cs => afterBlockComment cs
  | [] => none

/-- Operators and brackets, longer ones first. -/
def symbols : List String := [
  "<<=", ">>=", "&^=", "...",
  "&&", "||", "<-", "++", "--", "==", "!=", "<=", ">=", ":=", "+=", "-=", "*=", "/=", "%=", "&=",
  "|=", "^=", "<<", ">>", "&^",
  "+", "-", "*", "/", "%", "&", "|", "^", "<", ">", "=", "!", "(", ")", "[", "]", "\x7b", "\x7d",
  ",", ";", ".", ":", "~"]

def symbol? (cs : List Char) : Option (String × List Char) :=
  match symbols.find? fun s ↦ s.toList.isPrefixOf cs with
  | some s => some (s, cs.drop s.length)
  | none => none

/-- The text that stands before `rest`. -/
def upTo (cs rest : List Char) : List Char := cs.take (cs.length - rest.length)

def isBlank (c : Char) : Bool := c == ' ' || c == '\t' || c == '\r' || c == '\x0b' || c == '\x0c'

/-- A symbol, or a lexeme that its first character tells. -/
def lexeme? (cs : List Char) : Option (Lexeme × List Char) :=
  let reading (make : String → Lexeme) (rest : List Char) :=
    some (make (String.ofList (upTo cs rest)), rest)
  match cs with
  | '"' :: body => (afterString body).bind (reading .string)
  | '\'' :: body => (afterRune body).bind (reading .rune)
  | c :: body =>
    if c == '\x60' then (afterRawString body).bind (reading .string)
    else if Text.isIdentifierStart c then
      let rest := body.takeWhile Text.isIdentifierPart
      some (.word (String.ofList (c :: rest)), body.drop rest.length)
    else match if c.isDigit || c == '.' then afterNumber cs else none with
      | some rest => reading .number rest
      | none => (symbol? cs).map fun (s, rest) ↦ (.symbol s, rest)
  | [] => none

/-- The piece at the beginning of a text, and the rest. An unclosed comment is a division sign. -/
def piece? : List Char → Option (Piece × List Char)
  | '\n' :: cs => some (.lineFeed, cs)
  | '/' :: '/' :: cs =>
    let body := cs.takeWhile (· != '\n')
    some (.comment ('/' :: '/' :: body), cs.drop body.length)
  | '/' :: '*' :: cs =>
    match afterBlockComment cs with
    | some rest => some (.comment (upTo ('/' :: '*' :: cs) rest), rest)
    | none => (lexeme? ('/' :: '*' :: cs)).map fun (l, rest) ↦ (.lexeme l, rest)
  | c :: cs =>
    if isBlank c then some (.blank c, cs)
    else (lexeme? (c :: cs)).map fun (l, rest) ↦ (.lexeme l, rest)
  | [] => none

/-- The pieces of a text of at most `n` characters. -/
def piecesWithin? : Nat → List Char → Option (List Piece)
  | _, [] => some []
  | 0, _ => none
  | n + 1, cs => do
    let (piece, rest) ← piece? cs
    return piece :: (← piecesWithin? n rest)

/-- The pieces of a text. A byte order mark at its beginning is left out. -/
def pieces? (cs : List Char) : Option (List Piece) :=
  let cs := match cs with
    | c :: rest => if c.toNat = 0xFEFF then rest else c :: rest
    | [] => []
  piecesWithin? cs.length cs

end Lexer

end GoOpenApi.Go
