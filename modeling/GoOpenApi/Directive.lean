import GoOpenApi.Dict
import GoOpenApi.Text.Split
import GoOpenApi.Text.Number

/-!
Directives in doc comments. A line `@tg key value`, `@tg key:v1,v2` or `@tg key` gives the values
of a key. A block without any marked line is made of directives throughout; otherwise unmarked
lines are prose.
-/

namespace GoOpenApi

/-- The values under each key; a bare flag has none. -/
abbrev Directives := Dict (List String)

namespace Directives

def marker : List Char := ['@', 't', 'g']

/-- What a marked line says after the marker. The marker is a word of its own. -/
def markedRest (line : List Char) : Option (List Char) :=
  match Text.dropHead marker (Text.trimList line) with
  | some [] => some []
  | some (c :: cs) => if Text.isBlank c then some (Text.trimList (c :: cs)) else none
  | none => none

/-- The values of a list, trimmed, without empty ones. -/
def listedValues (cs : List Char) : List (List Char) :=
  ((Text.splitList (· == ',') cs).map Text.trimList).filter (!·.isEmpty)

/-- A directive is cut at its first blank. If the head has a colon the values are listed from
there on; otherwise the rest of the line is the only value. -/
def readLine (line : List Char) : List Char × List (List Char) :=
  let head := line.takeWhile (!Text.isBlank ·)
  let rest := Text.trimList (line.drop head.length)
  match Text.cutList (· == ':') head with
  | some (key, list) => (key, listedValues (if rest.isEmpty then list else list ++ ' ' :: rest))
  | none => (head, if rest.isEmpty then [] else [rest])

def directiveLines (lines : List (List Char)) : List (List Char) :=
  let read := if lines.any fun line ↦ (markedRest line).isSome then lines.filterMap markedRest
    else lines.map Text.trimList
  read.filter (!·.isEmpty)

def entry (line : List Char) : String × List String :=
  let (key, values) := readLine line
  (String.ofList key, values.map String.ofList)

def parseLists (lines : List (List Char)) : Directives :=
  Dict.ofList ((directiveLines lines).map entry)

/-- The directives of a doc comment. The last line of a key counts. -/
def parse (lines : List String) : Directives := parseLists (lines.map String.toList)

def parseText (text : String) : Directives := parse (Text.lines text)

/-- The entries of both; those of `upper` win. -/
def merge (base upper : Directives) : Directives :=
  upper.foldl (fun d (key, values) ↦ d.insert key values) base

def value? (key : String) (d : Directives) : Option String :=
  (d.find? key).map (Text.join ",")

def text? (key : String) (d : Directives) : Option String :=
  (d.value? key).filter (!·.isEmpty)

def valueOr (key default : String) (d : Directives) : String := (d.text? key).getD default

/-- The value as a 64-bit number, if it is one. -/
def intOr (key : String) (default : Int) (d : Directives) : Int :=
  ((d.value? key).bind fun v ↦ Text.signed? 64 10 (Text.trimList v.toList)).getD default

/-- All values of a key; a value with commas is several. -/
def values (key : String) (d : Directives) : List String :=
  match d.find? key with
  | some vs => vs.flatMap fun v ↦ (listedValues v.toList).map String.ofList
  | none => []

end Directives

end GoOpenApi
