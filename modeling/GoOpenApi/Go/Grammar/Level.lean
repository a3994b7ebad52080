import GoOpenApi.Go.Grammar.Parser
import GoOpenApi.Go.Declaration

/-!
The constructs of the language that contain each other. Grammar rules are written over a level
that reads what nests inside; the parser for a text has as many levels as the text has tokens.
-/

namespace GoOpenApi.Go

/-- Parsers for what may stand inside a construct. -/
structure Level where
  type : Parser GoType
  /-- An expression; a literal of a named type may be left out, as in the head of a loop. -/
  expression : (literals : Bool) → Parser Unit
  /-- The braces of a composite literal. -/
  literal : Parser Unit
  /-- A statement; inside a case clause the next case ends the list. -/
  statement : (inCase : Bool) → Parser Unit
  block : Parser Unit

/-- The level at which nothing can be read. -/
def Level.bottom : Level := ⟨.fail, fun _ ↦ .fail, .fail, fun _ ↦ .fail, .fail⟩

end GoOpenApi.Go
