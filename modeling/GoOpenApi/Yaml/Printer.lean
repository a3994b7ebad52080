import GoOpenApi.Json.Basic
import GoOpenApi.Yaml.Scalar

/-!
The YAML text of a value in block style. A level of mappings is two spaces; a sequence in a
mapping is not indented; empty collections are written in brackets.
-/

namespace GoOpenApi.Yaml

/-- Keys longer than this many bytes stand on a line of their own after a question mark. -/
def longestKey : Nat := 128

def isLongKey (s : String) : Bool := longestKey < s.utf8ByteSize || s.toList.any isBreak

mutual

/-- A value after the key of a mapping that is indented by `indent`. -/
def afterKey (indent : Nat) : Json → List Char
  | .obj (member :: members) =>
    '\n' :: spaces (indent + 2) ++ entry (indent + 2) member ++ entries (indent + 2) members
  | .arr (v :: items) =>
    '\n' :: spaces indent ++ item indent v ++ sequence indent items
  | .obj [] => [' ', '\x7b', '\x7d', '\n']
  | .arr [] => [' ', '[', ']', '\n']
  | .null => [' ', 'n', 'u', 'l', 'l', '\n']
  | .bool b => ' ' :: (toString b).toList ++ ['\n']
  | .num n => ' ' :: (toString n).toList ++ ['\n']
  | .str s => ' ' :: scalarLine (indent + 2) s.toList

/-- A value on the line of a marker that stands at `indent`. -/
def afterMarker (indent : Nat) : Json → List Char
  | .obj (member :: members) => ' ' :: entry (indent + 2) member ++ entries (indent + 2) members
  | .arr (v :: items) => ' ' :: item (indent + 2) v ++ sequence (indent + 2) items
  | .obj [] => [' ', '\x7b', '\x7d', '\n']
  | .arr [] => [' ', '[', ']', '\n']
  | .null => [' ', 'n', 'u', 'l', 'l', '\n']
  | .bool b => ' ' :: (toString b).toList ++ ['\n']
  | .num n => ' ' :: (toString n).toList ++ ['\n']
  | .str s => ' ' :: scalarLine (indent + 2) s.toList

def entry (indent : Nat) : String × Json → List Char
  | (k, v) =>
    if isLongKey k then
      '?' :: ' ' :: key (indent + 2) k ++ '\n' :: spaces indent ++ ':' :: afterMarker indent v
    else key (indent + 2) k ++ ':' :: afterKey indent v

def entries (indent : Nat) : List (String × Json) → List Char
  | [] => []
  | member :: members => spaces indent ++ entry indent member ++ entries indent members

def item (indent : Nat) : Json → List Char
  | v => '-' :: afterMarker indent v

def sequence (indent : Nat) : List Json → List Char
  | [] => []
  | v :: items => spaces indent ++ item indent v ++ sequence indent items

end

def renderList : Json → List Char
  | .obj (member :: members) => entry 0 member ++ entries 0 members
  | v => (afterMarker 0 v).drop 1

def render (v : Json) : String := String.ofList (renderList v)

end GoOpenApi.Yaml
