import GoOpenApi.Text.CaseTable

/-!
Upper and lower case. The maps of whole texts are the full Unicode ones: a character may
become several, and a capital sigma that ends a word becomes the final small sigma.
-/

namespace GoOpenApi.Text

def isUpper (c : Char) : Bool :=
  ('A' ≤ c && c ≤ 'Z') || (0x80 ≤ c.toNat && CharTable.holds uppercaseRows c.toNat)

def isCased (c : Char) : Bool :=
  c.isAlpha || (0x80 ≤ c.toNat && CharTable.holds casedRows c.toNat)

def isCaseIgnorable (c : Char) : Bool :=
  c == '\'' || c == '.' || c == ':' || c == '^' || c == '\x60' ||
    (0x80 ≤ c.toNat && CharTable.holds caseIgnorableRows c.toNat)

/-- The first character of the lower case of `c`. -/
def lowerChar (c : Char) : Char :=
  if c.toNat < 0x80 then c.toLower
  else if c.toNat = 0x130 then 'i'
  else Char.ofNat (CharTable.shifted lowerRows c.toNat)

/-- The lower case of `c` away from the end of a word. Only U+0130 has two characters. -/
def lowerList (c : Char) : List Char :=
  if c.toNat = 0x130 then ['i', Char.ofNat 0x307] else [lowerChar c]

def upperList (c : Char) : List Char :=
  if c.toNat < 0x80 then [c.toUpper]
  else match upperExpansions.find? fun (n, _) ↦ n == c.toNat with
    | some (_, ns) => ns.map Char.ofNat
    | none => [Char.ofNat (CharTable.shifted upperRows c.toNat)]

/-- Whether the first character that is not case-ignorable is cased. -/
def meetsCased (cs : List Char) : Bool :=
  ((cs.dropWhile isCaseIgnorable).head?.map isCased).getD false

/-- Lower case of `cs` that stand after `before`, which is kept in reverse. -/
def lowercaseAfter (before : List Char) : List Char → List Char
  | [] => []
  | c :: cs =>
    (if c.toNat = 0x3A3 then
      [if meetsCased before && !meetsCased cs then Char.ofNat 0x3C2 else Char.ofNat 0x3C3]
    else lowerList c) ++ lowercaseAfter (c :: before) cs

def lowercase (s : String) : String := String.ofList (lowercaseAfter [] s.toList)

def uppercase (s : String) : String := String.ofList (s.toList.flatMap upperList)

def equalIgnoringAsciiCase (s t : String) : Bool :=
  s.toList.map Char.toLower == t.toList.map Char.toLower

/-- How many leading characters are lowered: all of an upper-case run that is the whole text,
and a longer run without its last character, which begins the next word. -/
def lowerCamelCount (cs : List Char) : Nat :=
  let run := (cs.takeWhile isUpper).length
  if run = cs.length then run else if run ≤ 1 then run else run - 1

def lowerCamelList (cs : List Char) : List Char :=
  let n := lowerCamelCount cs
  (cs.take n).map lowerChar ++ cs.drop n

/-- The lower camel case of a name: `GetUser` becomes `getUser`, `ID` becomes `id` and
`HTTPServer` becomes `httpServer`. -/
def lowerCamel (s : String) : String := String.ofList (lowerCamelList s.toList)

theorem length_lowerCamelList (cs : List Char) : (lowerCamelList cs).length = cs.length := by
  simp only [lowerCamelList, List.length_append, List.length_map, List.length_take,
    List.length_drop]
  omega

end GoOpenApi.Text
