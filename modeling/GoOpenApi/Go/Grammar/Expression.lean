import GoOpenApi.Go.Grammar.Type

/-!
Expressions. They are read only to find where they end.
-/

namespace GoOpenApi.Go

open GoOpenApi.Go.Parser

def binaryOperators : List String :=
  ["*", "/", "%", "<<", ">>", "&", "&^", "+", "-", "|", "^", "==", "!=", "<", "<=", ">", ">=",
    "&&", "||"]

/-- Operators before an operand. Two of them may be written together. -/
def unaryOperators : List String :=
  ["+", "-", "!", "^", "*", "&", "<-", "&&", "++", "--", "&^"]

namespace Parser

/-- One of several symbols. -/
def anySymbol (options : List String) : Parser Unit := accept fun t ↦
  match t.lexeme with
  | .symbol s => if options.contains s then some () else none
  | _ => none

end Parser

namespace Level

variable (g : Level)

def expressionOrType : Parser Unit := g.expression true <|> do let _ ← g.type

def argument : Parser Unit := do
  g.expressionOrType
  let _ ← optional (symbol "...")

def arguments : Parser Unit := do
  let _ ← betweenOrNone "(" ")" (commaListEnded g.argument)

/-- What `new` and `make` take. -/
def typeAndArguments : Parser Unit := do
  let _ ← betweenOrNone "(" ")" do
    let _ ← g.type
    let _ ← many do symbol ","; g.expression true
    let _ ← optional (symbol ",")
    return [()]

/-- The bounds of a slice after the first one. -/
def otherBounds : Parser Unit := do
  symbol ":"
  let _ ← optional (g.expression true)
  let _ ← optional do symbol ":"; g.expression true

def otherArguments : Parser Unit := do
  let _ ← many do symbol ","; g.expressionOrType
  let _ ← optional (symbol ",")

/-- The bounds of a slice, an index, or type arguments. -/
def index : Parser Unit :=
  between "[" "]" <|
    (do g.expression true; g.otherBounds <|> g.otherArguments) <|>
    g.otherBounds <|>
    do g.expressionOrType; g.otherArguments

def element : Parser Unit := g.literal <|> g.expression true

def keyedElement : Parser Unit := do
  g.element
  let _ ← optional do symbol ":"; g.element

def literalOf : Parser Unit := do
  let _ ← between "\x7b" "\x7d" (looseList g.keyedElement)

/-- A type that begins a literal or a conversion. -/
def typeOperand : Parser Unit := do
  (do symbol "["; symbol "..."; symbol "]"; let _ ← g.type) <|> do let _ ← g.typeOf
  g.literal <|> g.arguments

def functionLiteral : Parser Unit := do
  keyword "func"
  let _ ← g.signature
  g.block

/-- An operand; the answer tells whether it may be the type of a literal. -/
def operand : Parser Bool := do
  match (← peek).lexeme with
  | .number _ | .rune _ | .string _ => let _ ← accept some; return false
  | .symbol "(" =>
    between "(" ")" (g.expression true) <|> between "(" ")" (do let _ ← g.type)
    return false
  | .symbol "[" => g.typeOperand; return false
  | .word "func" => (g.functionLiteral <|> g.typeOperand); return false
  | .word "struct" | .word "map" | .word "chan" | .word "interface" =>
    g.typeOperand; return false
  | .word "new" | .word "make" =>
    (do let _ ← anyWord; g.typeAndArguments; return false) <|> do let _ ← anyWord; return true
  | .word _ => let _ ← anyWord; return true
  | _ => fail

/-- One step of what may follow an operand; the answer tells whether the whole may be the type of
a literal. -/
def postfixStep (literals mayBeType : Bool) : Parser Bool := do
  match (← peek).lexeme with
  | .symbol "." =>
    (do symbol "."; let _ ← between "(" ")" g.type; return false) <|> do
      symbol "."
      let _ ← anyWord
      return mayBeType
  | .symbol "[" => g.index; return mayBeType
  | .symbol "(" => g.arguments; return false
  | .symbol "\x7b" => if literals && mayBeType then g.literal; return false else fail
  | _ => fail

/-- The steps after an operand, at most as many as the given tokens. -/
def postfixSteps (literals : Bool) : List Token → Bool → Parser Unit
  | [], _ => return ()
  | _ :: fuel, mayBeType => do
    match ← optional (g.postfixStep literals mayBeType) with
    | some mayBeType => postfixSteps literals fuel mayBeType
    | none => return ()

/-- An operand with the operators before it and the steps after it. -/
def unary (literals : Bool) : Parser Unit := do
  let _ ← within false (many (anySymbol unaryOperators))
  let mayBeType ← g.operand
  fun line ts ↦ g.postfixSteps literals ts mayBeType line ts

def expressionOf (literals : Bool) : Parser Unit := do
  g.unary literals
  let _ ← many do anySymbol binaryOperators; g.unary literals

end Level

end GoOpenApi.Go
