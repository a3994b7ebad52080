import GoOpenApi.Go.Grammar.Expression

/-!
Statements and the declarations among them. Apart from type declarations they are read only to
find where they end.
-/

namespace GoOpenApi.Go

open GoOpenApi.Go.Parser

/-- What a type specification gives its name to. -/
inductive TypeBody where
  | interface (methods : List Method) (embedded : List GoType)
  | struct (fields : List Field)
  | other (type : GoType)

structure TypeSpec where
  name : String
  body : TypeBody

def assignmentOperators : List String :=
  [":=", "=", "+=", "-=", "*=", "/=", "%=", "&=", "|=", "^=", "<<=", ">>=", "&^="]

namespace Level

variable (g : Level)

def typeParameter : Parser Unit := do
  let _ ← commaList identifier
  let _ ← g.union

def typeParameters : Parser Unit := do
  let _ ← between "[" "]" (commaListEnded g.typeParameter)

def typeBody : Parser TypeBody := do
  match (← peek).lexeme with
  | .word "interface" =>
    keyword "interface"
    let (methods, embedded) ← g.interfaceBody
    return .interface methods embedded
  | .word "struct" => keyword "struct"; return .struct (← g.structBody)
  | _ => return .other (← g.typeOf)

def aliasBody : Parser TypeBody := do
  symbol "="
  return .other (← g.typeOf)

/-- An array type is preferred to type parameters. -/
def typeSpec : Parser TypeSpec := do
  let name ← anyWord
  let body ← g.aliasBody <|> g.typeBody <|> do g.typeParameters; g.aliasBody <|> g.typeBody
  return ⟨name, body⟩

/-- The specifications of a type declaration with their siblings. -/
def typeDeclaration : Parser (List (Sibling TypeSpec)) := do
  keyword "type"
  members "(" ")" true g.typeSpec <|> sibling g.typeSpec

def expressions : Parser Unit := do let _ ← commaList (g.expression true)

def assigned : Parser Unit := do symbol "="; g.expressions

def variableSpec : Parser Unit := do
  let _ ← commaList anyWord
  g.assigned <|> do let _ ← g.type; let _ ← optional g.assigned

def constantSpec : Parser Unit := do
  let _ ← commaList anyWord
  let _ ← optional (g.assigned <|> do let _ ← g.type; g.assigned)

/-- A keyword with one specification or a group of them. -/
def declarationOf (word : String) (spec : Parser Unit) : Parser Unit := do
  keyword word
  (do let _ ← members "(" ")" true spec) <|> spec

/-- An expression, an assignment, or one of the short forms of it. -/
def simpleStatement (literals : Bool) : Parser Unit := do
  let expression := g.expression literals
  expression
  let others ← many do symbol ","; expression
  let assignment : Parser Unit := do
    anySymbol assignmentOperators
    let _ ← commaList expression
  if others.isEmpty then
    let _ ← optional (assignment <|> anySymbol ["++", "--"] <|> do symbol "<-"; expression)
  else assignment

def conditional : Parser Unit := do
  keyword "if"
  within false do
    let _ ← optional do g.simpleStatement false; symbol ";"
    g.expression false
  g.block
  let _ ← optional do
    keyword "else"
    match (← peek).lexeme with
    | .word "if" => g.statement false
    | _ => g.block

def rangeHead : Parser Unit := do
  let _ ← optional do
    let _ ← commaList (g.expression false)
    anySymbol ["=", ":="]
  keyword "range"
  g.expression false

def clauseHead : Parser Unit := do
  let _ ← optional (g.simpleStatement false)
  symbol ";"
  let _ ← optional (g.expression false)
  symbol ";"
  let _ ← optional (g.simpleStatement false)

def loop : Parser Unit := do
  keyword "for"
  g.block <|> (do within false g.rangeHead; g.block) <|>
    (do within false g.clauseHead; g.block) <|> do
      within false (g.expression false)
      g.block

/-- Whether a list of statements ends before the next token. -/
def statementsEnd (inCase : Bool) : Parser Bool := do
  match (← peek).lexeme with
  | .symbol "\x7d" => return true
  | .word "case" | .word "default" => return inCase
  | _ => return false

/-- Statements to the end of their list, at most as many as the given tokens. -/
def statementsWithin (inCase : Bool) : List Token → Parser Unit
  | [] => fail
  | _ :: fuel => do
    if ← statementsEnd inCase then return ()
    g.statement inCase
    if ← statementsEnd inCase then return ()
    let _ ← terminator
    statementsWithin inCase fuel

def statements (inCase : Bool) : Parser Unit :=
  within true fun line ts ↦ g.statementsWithin inCase ts line ts

def blockOf : Parser Unit := do
  symbol "\x7b"
  g.statements false
  symbol "\x7d"

def defaultClause : Parser Unit := do
  keyword "default"
  symbol ":"
  g.statements true

def caseClause : Parser Unit := do
  keyword "case"
  within false do
    let _ ← commaList g.expressionOrType
    symbol ":"
  g.statements true

def communicationClause : Parser Unit := do
  keyword "case"
  within false do
    g.simpleStatement true
    symbol ":"
  g.statements true

def switch : Parser Unit := do
  keyword "switch"
  within false do
    let _ ← optional do g.simpleStatement false; symbol ";"
    let _ ← optional (g.simpleStatement false)
    symbol "\x7b"
    let _ ← many (g.caseClause <|> g.defaultClause)
    symbol "\x7d"

def select : Parser Unit := do
  keyword "select"
  within false do
    symbol "\x7b"
    let _ ← many (g.communicationClause <|> g.defaultClause)
    symbol "\x7d"

def labeled (inCase : Bool) : Parser Unit := do
  let _ ← anyWord
  symbol ":"
  if ← statementsEnd inCase then return ()
  g.statement inCase

def otherStatement (inCase : Bool) : Parser Unit :=
  g.labeled inCase <|> g.simpleStatement true

def statementOf (inCase : Bool) : Parser Unit := do
  match (← peek).lexeme with
  | .symbol ";" => symbol ";"
  | .symbol "\x7b" => g.blockOf
  | .word "var" => declarationOf "var" g.variableSpec
  | .word "const" => declarationOf "const" g.constantSpec
  | .word "type" => let _ ← g.typeDeclaration
  | .word "return" => keyword "return"; let _ ← optional g.expressions
  | .word "go" => keyword "go"; g.expression true
  | .word "defer" => keyword "defer"; g.expression true
  | .word "if" => g.conditional
  | .word "for" => g.loop
  | .word "switch" => g.switch
  | .word "select" => g.select
  | .word "fallthrough" => keyword "fallthrough"
  | .word "break" => keyword "break"; let _ ← optional anyWord
  | .word "continue" => keyword "continue"; let _ ← optional anyWord
  | .word "goto" => keyword "goto"; let _ ← anyWord
  | .word "case" | .word "default" => if inCase then fail else g.otherStatement inCase
  | _ => g.otherStatement inCase

end Level

/-- The parsers for what nests at most `n` deep. -/
def level : Nat → Level
  | 0 => .bottom
  | n + 1 =>
    let g := level n
    ⟨g.typeOf, g.expressionOf, g.literalOf, g.statementOf, g.blockOf⟩

end GoOpenApi.Go
