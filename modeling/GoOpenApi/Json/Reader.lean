import GoOpenApi.Json.Basic
import GoOpenApi.Text.Number

/-!
Reading JSON texts whose numbers are whole. A reader takes the text from where it stands and
returns the value with the rest.
-/

namespace GoOpenApi.Json

def isSpace (c : Char) : Bool := c == ' ' || c == '\t' || c == '\n' || c == '\r'

def skipSpace (cs : List Char) : List Char := cs.dropWhile isSpace

/-- The code unit that four hexadecimal digits write. -/
def unit? : List Char → Option (Nat × List Char)
  | a :: b :: c :: d :: cs => (Text.digits? 16 [a, b, c, d]).map (·, cs)
  | _ => none

/-- The character after `\u`. A high surrogate must be followed by a low one. -/
def unicode? (cs : List Char) : Option (Char × List Char) :=
  match unit? cs with
  | none => none
  | some (hi, rest) =>
    if 0xD800 ≤ hi ∧ hi < 0xDC00 then
      match rest with
      | '\\' :: 'u' :: rest =>
        match unit? rest with
        | some (lo, rest) =>
          if 0xDC00 ≤ lo ∧ lo < 0xE000 then
            some (Char.ofNat (0x10000 + (hi - 0xD800) * 0x400 + (lo - 0xDC00)), rest)
          else none
        | none => none
      | _ => none
    else if 0xDC00 ≤ hi ∧ hi < 0xE000 then none
    else some (Char.ofNat hi, rest)

def escaped? : List Char → Option (Char × List Char)
  | '"' :: cs => some ('"', cs)
  | '\\' :: cs => some ('\\', cs)
  | '/' :: cs => some ('/', cs)
  | 'b' :: cs => some ('\x08', cs)
  | 'f' :: cs => some ('\x0c', cs)
  | 'n' :: cs => some ('\n', cs)
  | 'r' :: cs => some ('\r', cs)
  | 't' :: cs => some ('\t', cs)
  | 'u' :: cs => unicode? cs
  | _ => none

/-- The characters up to the closing quote, and what follows it. -/
def quotedBody? : Nat → List Char → Option (List Char × List Char)
  | _ + 1, '"' :: cs => some ([], cs)
  | fuel + 1, '\\' :: cs => do
    let (c, cs) ← escaped? cs
    let (body, rest) ← quotedBody? fuel cs
    return (c :: body, rest)
  | fuel + 1, c :: cs => do
    if c.toNat < 0x20 then none
    let (body, rest) ← quotedBody? fuel cs
    return (c :: body, rest)
  | _, _ => none

def quoted? : List Char → Option (String × List Char)
  | '"' :: cs => (quotedBody? (cs.length + 1) cs).map fun (body, rest) ↦ (String.ofList body, rest)
  | _ => none

def number? (cs : List Char) : Option (Json × List Char) :=
  let (sign, digits) := match cs with
    | '-' :: rest => ((-1 : Int), rest)
    | _ => (1, cs)
  let run := digits.takeWhile Char.isDigit
  (Text.digits? 10 run).map fun n ↦ (.num (sign * n), digits.drop run.length)

mutual

def value? : Nat → List Char → Option (Json × List Char)
  | 0, _ => none
  | fuel + 1, cs =>
    match skipSpace cs with
    | 'n' :: 'u' :: 'l' :: 'l' :: cs => some (.null, cs)
    | 't' :: 'r' :: 'u' :: 'e' :: cs => some (.bool true, cs)
    | 'f' :: 'a' :: 'l' :: 's' :: 'e' :: cs => some (.bool false, cs)
    | '"' :: cs => (quoted? ('"' :: cs)).map fun (s, rest) ↦ (.str s, rest)
    | '[' :: cs =>
      match skipSpace cs with
      | ']' :: cs => some (.arr [], cs)
      | cs => do
        let (item, cs) ← value? fuel cs
        let (items, cs) ← itemsAfter? fuel cs
        return (.arr (item :: items), cs)
    | '{' :: cs =>
      match skipSpace cs with
      | '}' :: cs => some (.obj [], cs)
      | cs => do
        let (member, cs) ← member? fuel cs
        let (members, cs) ← membersAfter? fuel cs
        return (.obj (member :: members), cs)
    | cs => number? cs

/-- The items after the first one, up to the closing bracket. -/
def itemsAfter? : Nat → List Char → Option (List Json × List Char)
  | 0, _ => none
  | fuel + 1, cs =>
    match skipSpace cs with
    | ']' :: cs => some ([], cs)
    | ',' :: cs => do
      let (item, cs) ← value? fuel cs
      let (items, cs) ← itemsAfter? fuel cs
      return (item :: items, cs)
    | _ => none

def member? : Nat → List Char → Option ((String × Json) × List Char)
  | 0, _ => none
  | fuel + 1, cs => do
    let (key, cs) ← quoted? (skipSpace cs)
    match skipSpace cs with
    | ':' :: cs =>
      let (value, cs) ← value? fuel cs
      return ((key, value), cs)
    | _ => none

/-- The members after the first one, up to the closing brace. -/
def membersAfter? : Nat → List Char → Option (List (String × Json) × List Char)
  | 0, _ => none
  | fuel + 1, cs =>
    match skipSpace cs with
    | '}' :: cs => some ([], cs)
    | ',' :: cs => do
      let (member, cs) ← member? fuel cs
      let (members, cs) ← membersAfter? fuel cs
      return (member :: members, cs)
    | _ => none

end

def parseList? (cs : List Char) : Option Json :=
  match value? (2 * cs.length + 2) cs with
  | some (v, rest) => if (skipSpace rest).isEmpty then some v else none
  | none => none

def parse? (s : String) : Option Json := parseList? s.toList

end GoOpenApi.Json
