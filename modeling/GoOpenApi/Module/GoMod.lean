import GoOpenApi.Text.Split

/-!
Reading `go.mod`. A directive stands on a line of its own, or before a parenthesis with one entry
a line up to the closing one; what matters is the sequence of directives with their entries.
-/

namespace GoOpenApi

structure Requirement where
  path : String
  version : String
  deriving DecidableEq

/-- What `go.mod` says about where modules are. -/
structure GoMod where
  module? : Option String
  requires : List Requirement
  /-- Modules that are replaced by a local directory. -/
  replaces : List (String × String)

namespace GoMod

def empty : GoMod := ⟨none, [], []⟩

/-- A line without its comment and the blanks around it. -/
def content (line : List Char) : List Char := Text.trimList (Text.beforeList ['/', '/'] line)

/-- Directives that are read in a block. -/
def isBlockDirective (word : List Char) : Bool :=
  word == "require".toList || word == "replace".toList

def directiveOf (line : List Char) : List Char × List Char :=
  let word := line.takeWhile (!Text.isBlank ·)
  (word, Text.trimList (line.drop word.length))

/-- The directives with their entries, read inside a block of `block?` if it is given. Other
blocks than those of requirements and replacements have no entries. -/
def entriesFrom (block? : Option (List Char)) :
    List (List Char) → List (List Char × List Char)
  | [] => []
  | line :: lines =>
    if line.isEmpty then entriesFrom block? lines
    else match block? with
      | some directive =>
        if line = [')'] then entriesFrom none lines
        else if isBlockDirective directive then
          (directive, line) :: entriesFrom block? lines
        else entriesFrom block? lines
      | none =>
        let (directive, rest) := directiveOf line
        if rest = ['('] then entriesFrom (some directive) lines
        else (directive, rest) :: entriesFrom none lines

def entries (text : List Char) : List (List Char × List Char) :=
  entriesFrom none ((Text.linesList text).map content)

def wordsOf (cs : List Char) : List (List Char) :=
  (Text.splitList Text.isBlank cs).filter (!·.isEmpty)

def unquoted (cs : List Char) : String := Text.trimChar '"' (String.ofList cs)

def requirement? (entry : List Char) : Option Requirement :=
  match wordsOf entry with
  | path :: version :: _ => some ⟨unquoted path, String.ofList version⟩
  | _ => none

/-- Only directories can be followed; they begin with a dot or a slash. -/
def isLocal (path : List Char) : Bool :=
  ['.', '/'].isPrefixOf path || ['.', '.', '/'].isPrefixOf path || ['/'].isPrefixOf path

/-- The module and the directory of a replacement. -/
def replacement? (entry : List Char) : Option (String × String) :=
  let before := Text.beforeList ['=', '>'] entry
  match Text.dropHead ['=', '>'] (entry.drop before.length) with
  | some after =>
    let target := (wordsOf after).headD []
    if isLocal target then some (unquoted ((wordsOf before).headD []), String.ofList target)
    else none
  | none => none

def apply (m : GoMod) : List Char × List Char → GoMod
  | (directive, entry) =>
    if directive = "module".toList then { m with module? := some (unquoted entry) }
    else if directive = "require".toList then
      { m with requires := m.requires ++ (requirement? entry).toList }
    else if directive = "replace".toList then
      { m with replaces := m.replaces ++ (replacement? entry).toList }
    else m

def parseList (text : List Char) : GoMod := (entries text).foldl apply empty

def parse (text : String) : GoMod := parseList text.toList

end GoMod

end GoOpenApi
