import GoOpenApi.Text.Split

/-!
Paths of operations. A segment `:name` or `{name}` is a parameter; documents write it in braces.
-/

namespace GoOpenApi.Route

def segmentParam? : List Char → Option (List Char)
  | ':' :: name => some name
  | '\x7b' :: cs => match cs.reverse with
    | '\x7d' :: name => some name.reverse
    | _ => none
  | _ => none

def segments (path : List Char) : List (List Char) := Text.splitList (· == '/') path

def paramsList (path : List Char) : List (List Char) :=
  ((segments path).filterMap segmentParam?).filter (!·.isEmpty)

def params (path : String) : List String := (paramsList path.toList).map String.ofList

/-- The parts of a path joined with single slashes after a leading one. -/
def joinList (parts : List (List Char)) : List Char :=
  '/' :: ['/'].intercalate ((parts.flatMap segments).filter (!·.isEmpty))

def join (parts : List String) : String := String.ofList (joinList (parts.map String.toList))

/-- A segment with its parameter in braces. -/
def documentedSegment : List Char → List Char
  | ':' :: name => '\x7b' :: name ++ ['\x7d']
  | segment => segment

/-- The path as a document writes it. -/
def documentedList (path : List Char) : List Char :=
  ['/'].intercalate ((segments path).map documentedSegment)

def documented (path : String) : String := String.ofList (documentedList path.toList)

end GoOpenApi.Route
