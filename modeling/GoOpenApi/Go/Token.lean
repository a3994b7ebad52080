import GoOpenApi.Go.Lexer

/-!
Tokens: lexemes with the comments before them and their rows in the text. The last token of a
text is its end.
-/

namespace GoOpenApi.Go

structure Comment where
  text : String
  row : Nat
  endRow : Nat

structure Token where
  lexeme : Lexeme
  /-- The comments between the token before and this one. -/
  comments : List Comment
  /-- Whether a line ends between the token before and this one, outside of comments. -/
  newline : Bool
  /-- Whether anything stands between the token before and this one. -/
  spaced : Bool
  row : Nat
  endRow : Nat
  /-- The row on which the token before ends. -/
  lastRow : Nat

namespace Token

def lineFeeds (cs : List Char) : Nat := cs.count '\n'

/-- The tokens of `pieces` that begin on `row`. What was seen since the token before is given by
its comments, latest first, and by `newline` and `spaced`. -/
def ofPiecesFrom (row lastRow : Nat) (comments : List Comment) (newline spaced : Bool) :
    List Piece → List Token
  | [] => [⟨.eof, comments.reverse, newline, spaced, row, row, lastRow⟩]
  | .blank _ :: ps => ofPiecesFrom row lastRow comments newline true ps
  | .lineFeed :: ps => ofPiecesFrom (row + 1) lastRow comments true true ps
  | .comment text :: ps =>
    let endRow := row + lineFeeds text
    ofPiecesFrom endRow lastRow (⟨String.ofList text, row, endRow⟩ :: comments) newline true ps
  | .lexeme l :: ps =>
    let endRow := row + lineFeeds l.text.toList
    ⟨l, comments.reverse, newline, spaced, row, endRow, lastRow⟩ ::
      ofPiecesFrom endRow endRow [] false false ps

def ofPieces (pieces : List Piece) : List Token := ofPiecesFrom 0 0 [] false false pieces

/-- The tokens of a text, unless something in it is no lexeme. -/
def ofText? (s : String) : Option (List Token) := (Lexer.pieces? s.toList).map ofPieces

end Token

end GoOpenApi.Go
