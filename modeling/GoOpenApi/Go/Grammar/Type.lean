import GoOpenApi.Go.Grammar.Level
import GoOpenApi.Go.Tag
import GoOpenApi.Text.Number

/-!
Types. Channels, functions and constraints have no data and read as empty interfaces; arguments
of generic types are read and dropped. Packages are still the identifiers written in the text.
-/

namespace GoOpenApi.Go

open GoOpenApi.Go.Parser

/-- A type without data. -/
def opaqueType : GoType := .interface []

/-- A text between quotes, with escaped double quotes restored. -/
def unescapeQuotes : List Char → List Char
  | '\\' :: '"' :: cs => '"' :: unescapeQuotes cs
  | c :: cs => c :: unescapeQuotes cs
  | [] => []

def unquoteList (cs : List Char) : List Char := unescapeQuotes (cs.drop 1).dropLast

/-- The text that a string literal writes. -/
def unquote (s : String) : String := String.ofList (unquoteList s.toList)

/-- The value of a length that is written as a decimal or hexadecimal number of 64 bits. -/
def lengthOfList? (cs : List Char) : Option Nat :=
  match cs.filter (· != '_') with
  | '0' :: 'x' :: cs => Text.unsigned? 64 16 cs
  | '0' :: 'X' :: cs => Text.unsigned? 64 16 cs
  | cs => Text.unsigned? 64 10 cs

/-- The length that an expression gives; zero if it is no number. -/
def lengthOf (tokens : List Token) : UInt64 :=
  if (tokens.drop 1).any (·.spaced) then 0
  else
    let text := tokens.flatMap fun t ↦ t.lexeme.text.toList
    .ofNat ((lengthOfList? text).getD 0)

/-- Names that stand for fields of one type, numbered on from `count` when there are none. -/
def fieldsOf (stem : String) (count : Nat) : List String × GoType → List Field
  | ([], type) => [.ofType (stem ++ toString count) type]
  | (names, type) => names.map fun name ↦ .ofType name type

def numbered (stem : String) (groups : List (List String × GoType)) : List Field :=
  groups.foldl (fun fields group ↦ fields ++ fieldsOf stem fields.length group) []

namespace Level

variable (g : Level)

/-- A member of a union; a comment inside the union counts as a member. -/
def unionMember : Parser (List GoType) := do
  let bar ← peek
  symbol "|"
  let next ← peek
  let type ← g.type
  return (bar.comments ++ next.comments).map (fun _ ↦ opaqueType) ++ [type]

/-- The types of an element of an interface or constraint. -/
def union : Parser (List GoType) := do
  let first ← g.type
  return first :: (← many g.unionMember).flatten

def typeArguments : Parser Unit := do
  let _ ← between "[" "]" (commaListEnded g.union)

/-- The rest of a named type after its first word. -/
def namedType (word : String) : Parser GoType := do
  let name? ← optional do symbol "."; anyWord
  let _ ← optional g.typeArguments
  match name? with
  | some name => return .qualified word name
  | none => return .plain word

/-- One group of parameters: names before a type, a variadic one, or a type alone. -/
def parameterGroup : Parser (List String × GoType) :=
  (do
    let name? ← optional identifier
    symbol "..."
    return (name?.toList, .ellipsis (← g.type))) <|>
  (do
    let names ← commaList identifier
    let type ← g.type
    before [",", ")"]
    return (names, type)) <|>
  do return ([], ← g.type)

def parameters : Parser (List (List String × GoType)) :=
  between "(" ")" (looseList g.parameterGroup)

def results : Parser (List Field) :=
  (do return numbered "ret" (← g.parameters)) <|> do return [.ofType "ret0" (← g.type)]

def signature : Parser (List Field × List Field) := do
  let args ← g.parameters
  let results ← optional g.results
  return (numbered "arg" args, results.getD [])

/-- A method of an interface, without its docs. -/
def method : Parser Method := do
  let name ← identifier
  match ← optional g.signature with
  | some (args, results) => return ⟨name, [], args, results⟩
  | none => fail

/-- A method, or the types of an element. -/
def interfaceElement : Parser (Method ⊕ List GoType) :=
  (do return .inl (← g.method)) <|> do return .inr (← g.union)

/-- The methods of an interface with their docs, and its other elements. -/
def interfaceBody : Parser (List Method × List GoType) := do
  let elements := documented (← members "\x7b" "\x7d" false g.interfaceElement)
  return (
    elements.filterMap fun (docs, element) ↦ match element with
      | .inl method => some { method with docs := docs }
      | .inr _ => none,
    elements.flatMap fun (_, element) ↦ match element with
      | .inl _ => []
      | .inr types => types)

def tag : Parser (Dict (List String)) := do
  let text? ← optional stringLiteral
  return (text?.map fun text ↦ Tag.parse (unquote text)).getD []

/-- An embedded field, which ends where a field may end. -/
def embeddedField : Parser (List Field) := do
  let star? ← within false (optional (symbol "*"))
  let type ← g.namedType (← anyWord)
  let tags ← tag
  let next ← peek
  if !next.newline then before [";", "\x7d"]
  let name := (type.identity.map (·.2)).getD ""
  return [⟨name, if star?.isSome then .pointer type else type, tags, true⟩]

def namedFields : Parser (List Field) := do
  let names ← commaList anyWord
  let type ← g.type
  let tags ← tag
  return names.map fun name ↦ ⟨name, type, tags, false⟩

def structBody : Parser (List Field) := do
  let groups ← members "\x7b" "\x7d" false (g.embeddedField <|> g.namedFields)
  return (documented groups).flatMap (·.2)

/-- A type in brackets is the last thing inside them, be it a comment. -/
def parenthesizedType : Parser GoType := do
  symbol "("
  let type ← within false g.type
  let closing ← lexeme (.symbol ")")
  return if closing.comments.isEmpty then type else opaqueType

def arrayType : Parser GoType := do
  let length ← between "[" "]" (spanned (g.expression true))
  return .array (lengthOf length) (← g.type)

def mapType : Parser GoType := do
  keyword "map"
  let key ← between "[" "]" g.type
  return .map key (← g.type)

def channelType : Parser GoType :=
  (do symbol "<-"; keyword "chan"; let _ ← g.type; return opaqueType) <|> do
    keyword "chan"
    let _ ← within false (optional (symbol "<-"))
    let _ ← g.type
    return opaqueType

def functionType : Parser GoType := do
  keyword "func"
  let _ ← g.signature
  return opaqueType

def typeOf : Parser GoType := do
  match (← peek).lexeme with
  | .symbol "*" => symbol "*"; return .pointer (← g.type)
  | .symbol "(" => g.parenthesizedType
  | .symbol "[" => (do symbol "["; symbol "]"; return .slice (← g.type)) <|> g.arrayType
  | .symbol "~" => symbol "~"; let _ ← g.type; return opaqueType
  | .symbol "<-" => g.channelType
  | .word "chan" => g.channelType
  | .word "map" => g.mapType
  | .word "func" => g.functionType
  | .word "interface" => keyword "interface"; return .interface (← g.interfaceBody).1
  | .word "struct" => keyword "struct"; return .struct (← g.structBody)
  | .word _ => g.namedType (← anyWord)
  | _ => fail

end Level

end GoOpenApi.Go
