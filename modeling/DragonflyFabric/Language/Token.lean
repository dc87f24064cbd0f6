import DragonflyFabric.Decimal.Double

/-!
The tokens of the configuration language.
-/

namespace DragonflyFabric.Language

/-- What a token is, without what it carries: the terminal symbols of the grammar. -/
inductive Terminal
  | trueWord | falseWord | whereWord
  | number | literal | ident
  | equalEqual | leftBrace | rightBrace | leftBracket | rightBracket | leftParen | rightParen
  | comma | colon | bang | at | equal | dot
  deriving DecidableEq

/-- A word of the language. Numbers, literals and identifiers carry their contents. -/
inductive Token
  | number (value : Float)
  | literal (text : String)
  | ident (name : String)
  /-- Any other token is its terminal and nothing more. -/
  | mark (terminal : Terminal)

def Token.terminal : Token → Terminal
  | number _ => .number
  | literal _ => .literal
  | ident _ => .ident
  | mark terminal => terminal

end DragonflyFabric.Language
