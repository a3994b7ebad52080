import GoOpenApi.Json.Basic
import GoOpenApi.Text.Number

/-!
The indented JSON text of a value: two spaces a level, one member or item a line, `[]` and `{}`
for empty ones, no final line feed. Only quotes, backslashes and control characters are escaped.
-/

namespace GoOpenApi.Json

def escapeChar (c : Char) : List Char :=
  if c = '"' then ['\\', '"']
  else if c = '\\' then ['\\', '\\']
  else if c = '\x08' then ['\\', 'b']
  else if c = '\t' then ['\\', 't']
  else if c = '\n' then ['\\', 'n']
  else if c = '\x0c' then ['\\', 'f']
  else if c = '\r' then ['\\', 'r']
  else if c.toNat < 0x20 then '\\' :: 'u' :: Text.hexList 4 c.toNat
  else [c]

def quoteList (cs : List Char) : List Char := '"' :: cs.flatMap escapeChar ++ ['"']

def quoted (s : String) : List Char := quoteList s.toList

def indentation (depth : Nat) : List Char := List.replicate (2 * depth) ' '

/-- A line feed and the indentation of the next line. -/
def breakLine (depth : Nat) : List Char := '\n' :: indentation depth

mutual

def renderList (depth : Nat) : Json → List Char
  | .null => ['n', 'u', 'l', 'l']
  | .bool true => ['t', 'r', 'u', 'e']
  | .bool false => ['f', 'a', 'l', 's', 'e']
  | .num n => (toString n).toList
  | .str s => quoted s
  | .arr [] => ['[', ']']
  | .arr (item :: items) =>
    '[' :: breakLine (depth + 1) ++ renderList (depth + 1) item ++
      renderItems (depth + 1) items ++ breakLine depth ++ [']']
  | .obj [] => ['{', '}']
  | .obj (member :: members) =>
    '{' :: breakLine (depth + 1) ++ renderMember (depth + 1) member ++
      renderMembers (depth + 1) members ++ breakLine depth ++ ['}']

def renderItems (depth : Nat) : List Json → List Char
  | [] => []
  | item :: items => ',' :: breakLine depth ++ renderList depth item ++ renderItems depth items

def renderMember (depth : Nat) : String × Json → List Char
  | (key, value) => quoted key ++ ':' :: ' ' :: renderList depth value

def renderMembers (depth : Nat) : List (String × Json) → List Char
  | [] => []
  | member :: members =>
    ',' :: breakLine depth ++ renderMember depth member ++ renderMembers depth members

end

def render (v : Json) : String := String.ofList (renderList 0 v)

mutual

/-- The text of a value on one line. -/
def compactList : Json → List Char
  | .arr [] => ['[', ']']
  | .arr (item :: items) => '[' :: compactList item ++ compactItems items ++ [']']
  | .obj [] => ['{', '}']
  | .obj (member :: members) =>
    '{' :: compactMember member ++ compactMembers members ++ ['}']
  | v => renderList 0 v

def compactItems : List Json → List Char
  | [] => []
  | item :: items => ',' :: compactList item ++ compactItems items

def compactMember : String × Json → List Char
  | (key, value) => quoted key ++ ':' :: compactList value

def compactMembers : List (String × Json) → List Char
  | [] => []
  | member :: members => ',' :: compactMember member ++ compactMembers members

end

def compact (v : Json) : String := String.ofList (compactList v)

end GoOpenApi.Json
