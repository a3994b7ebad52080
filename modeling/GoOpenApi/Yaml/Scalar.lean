import GoOpenApi.Text.Number
import GoOpenApi.Text.Split

/-!
How a text is written as a YAML scalar: plain where that reads back as the same text, else between
quotes, and as a literal block when it has line feeds.
-/

namespace GoOpenApi.Yaml

/-! ### What a plain scalar reads as -/

def nullTexts : List String := ["", "null", "Null", "NULL", "~"]

def boolTexts : List String := ["true", "True", "TRUE", "false", "False", "FALSE"]

def infinityTexts : List String := [".inf", ".Inf", ".INF"]

def nanTexts : List String := [".nan", ".NaN", ".NAN"]

def isSign (c : Char) : Bool := c == '+' || c == '-'

def beginsWithSign : List Char → Bool
  | c :: _ => isSign c
  | [] => false

/-- A zero and more digits, perhaps after a sign, is a text and no number. -/
def isZeroRun (cs : List Char) : Bool :=
  match (if beginsWithSign cs then cs.drop 1 else cs) with
  | '0' :: c :: cs => (c :: cs).all Char.isDigit
  | _ => false

/-- A number after one of the marks `0x`, `0o` and `0b`. -/
def marked? : List Char → Option Nat
  | '0' :: 'x' :: cs => Text.digits? 16 cs
  | '0' :: 'o' :: cs => Text.digits? 8 cs
  | '0' :: 'b' :: cs => Text.digits? 2 cs
  | _ => none

def magnitude? (cs : List Char) : Option Nat :=
  match marked? cs with
  | some n => some n
  | none => Text.digits? 10 cs

/-- A whole number of at most 128 bits, the negative ones with a sign among them. -/
def isInteger (cs : List Char) : Bool :=
  if isZeroRun cs then false
  else match cs with
    | '-' :: digits => ((magnitude? digits).filter (· ≤ Nat.pow 2 127)).isSome
    | '+' :: digits => ((magnitude? digits).filter (· < Nat.pow 2 128)).isSome
    | digits => ((magnitude? digits).filter (· < Nat.pow 2 128)).isSome

/-- From here on the nearest double is infinite. -/
def infiniteFrom : Nat := Nat.pow 2 1024 - Nat.pow 2 970

/-- Whether `m * 10 ^ e` rounds to a finite double. -/
def isFinite (m : Nat) (e : Int) : Bool :=
  let digits := ((toString m).length : Int)
  if m = 0 || digits + e ≤ 308 then true
  else if 309 ≤ digits - 1 + e then false
  else m * Nat.pow 10 e.toNat < infiniteFrom * Nat.pow 10 (-e).toNat

/-- The exponent part of a decimal number; none is zero. -/
def exponent? : List Char → Option Int
  | [] => some 0
  | c :: cs => if c == 'e' || c == 'E' then Text.integer? 10 cs else none

/-- Whether an unsigned text is a decimal number that rounds to a finite double. A point may
stand at either end of the digits. -/
def isUnsignedFloat (cs : List Char) : Bool :=
  let whole := cs.takeWhile Char.isDigit
  let rest := cs.drop whole.length
  let (fraction, rest) := match rest with
    | '.' :: rest => (rest.takeWhile Char.isDigit, rest.dropWhile Char.isDigit)
    | rest => ([], rest)
  match Text.digits? 10 (whole ++ fraction), exponent? rest with
  | some m, some e => isFinite m (e - fraction.length)
  | _, _ => false

def isFloat (cs : List Char) : Bool :=
  let text := String.ofList cs
  let (unsigned, positive) := match cs with
    | '+' :: rest => (rest, String.ofList rest)
    | '-' :: rest => (rest, text)
    | rest => (rest, text)
  infinityTexts.contains positive || infinityTexts.any (fun t ↦ "-" ++ t == text) ||
    nanTexts.contains text || isUnsignedFloat unsigned

/-- Whether a plain scalar would read as something other than a text. -/
def readsAsOther (cs : List Char) : Bool :=
  let text := String.ofList cs
  nullTexts.contains text || boolTexts.contains text || isInteger cs || isZeroRun cs || isFloat cs

/-! ### Styles -/

def isBreak (c : Char) : Bool :=
  c == '\n' || c.toNat == 0x85 || c.toNat == 0x2028 || c.toNat == 0x2029

def isPrintable (c : Char) : Bool :=
  let n := c.toNat
  n == 0x0A || (0x20 ≤ n && n ≤ 0x7E) || (0xA0 ≤ n && n ≤ 0xFFFD && n != 0xFEFF) || 0xFFFF < n

/-- A character that only double quotes can hold. -/
def isSpecial (c : Char) : Bool := !isPrintable c

def indicators : List Char :=
  ['#', ',', '[', ']', '\x7b', '\x7d', '&', '*', '!', '|', '>', '\'', '"', '%', '@', '\x60']

def beginsBlank : List Char → Bool
  | [] => true
  | c :: _ => c == ' ' || c == '\t' || isBreak c

/-- Whether a text begins in a way that plain scalars must not. -/
def beginsIndicated : List Char → Bool
  | '-' :: '-' :: '-' :: _ => true
  | '.' :: '.' :: '.' :: _ => true
  | c :: cs =>
    c == ' ' || isBreak c || indicators.contains c ||
      ((c == '?' || c == ':' || c == '-') && beginsBlank cs)
  | [] => false

/-- Whether a text holds a colon before a blank or its end, or a number sign after a blank. -/
def holdsIndicated : List Char → Bool
  | ':' :: cs => beginsBlank cs || holdsIndicated cs
  | ' ' :: '#' :: _ => true
  | _ :: cs => holdsIndicated cs
  | [] => false

def endsWith (p : Char → Bool) (cs : List Char) : Bool := (cs.getLast?.map p).getD false

/-- Whether a space stands just before a line break. -/
def spaceBeforeBreak : List Char → Bool
  | ' ' :: c :: cs => isBreak c || spaceBeforeBreak (c :: cs)
  | _ :: cs => spaceBeforeBreak cs
  | [] => false

def spaceAfterBreak : List Char → Bool
  | c :: ' ' :: cs => isBreak c || spaceAfterBreak (' ' :: cs)
  | _ :: cs => spaceAfterBreak cs
  | [] => false

inductive Style where
  | plain
  | singleQuoted
  | doubleQuoted
  | literal
  deriving DecidableEq, Repr

/-- The style of a text as a value. -/
def style (cs : List Char) : Style :=
  if cs.contains '\n' then
    if cs.any isSpecial || endsWith (· == ' ') cs || spaceBeforeBreak cs then .doubleQuoted
    else .literal
  else if cs.any isSpecial || spaceBeforeBreak cs || spaceAfterBreak cs then .doubleQuoted
  else if readsAsOther cs || cs.any isBreak || beginsIndicated cs || holdsIndicated cs ||
      endsWith (· == ' ') cs then .singleQuoted
  else .plain

def keyStyle (cs : List Char) : Style :=
  if cs.any isBreak then .doubleQuoted else style cs

/-! ### Written forms -/

def letterEscapes : List (Nat × Char) :=
  [(0x00, '0'), (0x07, 'a'), (0x08, 'b'), (0x09, 't'), (0x0A, 'n'), (0x0B, 'v'), (0x0C, 'f'),
    (0x0D, 'r'), (0x1B, 'e'), (0x22, '"'), (0x5C, '\\'), (0x85, 'N'), (0x2028, 'L'),
    (0x2029, 'P')]

def upperHex (width n : Nat) : List Char := (Text.hexList width n).map Char.toUpper

/-- A character between double quotes. -/
def escapeChar (c : Char) : List Char :=
  match letterEscapes.lookup c.toNat with
  | some letter => ['\\', letter]
  | none =>
    if isPrintable c then [c]
    else if c.toNat ≤ 0xFF then '\\' :: 'x' :: upperHex 2 c.toNat
    else if c.toNat ≤ 0xFFFF then '\\' :: 'u' :: upperHex 4 c.toNat
    else '\\' :: 'U' :: upperHex 8 c.toNat

def spaces (n : Nat) : List Char := List.replicate n ' '

/-- A text between single quotes. The line after a line break is indented. -/
def singleQuotedBody (indent : Nat) : Bool → List Char → List Char
  | _, [] => []
  | broken, c :: cs =>
    if isBreak c then c :: singleQuotedBody indent true cs
    else (if broken then spaces indent else []) ++
      (if c = '\'' then ['\'', '\''] else [c]) ++ singleQuotedBody indent false cs

/-- The header of a literal block: an indentation when the text begins with a space or a line
break, and how many line breaks end it unless it is one. -/
def literalHeader (cs : List Char) : List Char :=
  let indentation := match cs with
    | c :: _ => if c == ' ' || isBreak c then ['2'] else []
    | [] => []
  let ending := match cs.reverse with
    | [] => ['-']
    | [c] => if isBreak c then ['+'] else ['-']
    | c :: d :: _ => if !isBreak c then ['-'] else if isBreak d then ['+'] else []
  '|' :: indentation ++ ending

def literalLine (indent : Nat) (line : List Char) : List Char :=
  if line.isEmpty then [] else spaces indent ++ line

/-- The lines of a literal block, each with its line feed. -/
def literalBody (indent : Nat) (cs : List Char) : List Char :=
  match (Text.splitList (· == '\n') cs).reverse with
  | [] => []
  | last :: ended =>
    ended.reverse.flatMap (fun line ↦ literalLine indent line ++ ['\n']) ++
      (if last.isEmpty then [] else literalLine indent last ++ ['\n'])

/-- A text in a style other than the literal one. -/
def inlineScalar (indent : Nat) (style : Style) (cs : List Char) : List Char :=
  match style with
  | .singleQuoted => '\'' :: singleQuotedBody indent false cs ++ ['\'']
  | .doubleQuoted => '"' :: cs.flatMap escapeChar ++ ['"']
  | _ => cs

/-- A value with the line feed that ends it; its further lines are indented. -/
def scalarLine (indent : Nat) (cs : List Char) : List Char :=
  match style cs with
  | .literal => literalHeader cs ++ '\n' :: literalBody indent cs
  | s => inlineScalar indent s cs ++ ['\n']

def key (indent : Nat) (s : String) : List Char :=
  inlineScalar indent (keyStyle s.toList) s.toList

end GoOpenApi.Yaml
