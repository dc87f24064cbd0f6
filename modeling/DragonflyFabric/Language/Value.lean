import DragonflyFabric.Decimal.Style
import DragonflyFabric.Text.Quoted

/-!
The values and expressions of the configuration language, and how they are displayed.

A value is displayed over several lines, one tab deeper for each level of nesting. Experiments and
conditions have no written form yet and show a placeholder. Of the expressions only chains of names,
members and constants have a written form; any other is shown by its structure.
-/

namespace DragonflyFabric.Language

open DragonflyFabric.Decimal (Style)
open DragonflyFabric.Text (quoted)

inductive Expr
  | equal (left right : Expr)
  | literal (text : String)
  | number (value : Float)
  | ident (name : String)
  | member (base : Expr) (name : String)
  | parens (inner : Expr)
  /-- `@inner` -/
  | named (inner : Expr)
  | call (name : String) (args : List (String × Expr))
  deriving Inhabited

inductive Value
  | literal (text : String)
  | number (value : Float)
  | object (name : String) (fields : List (String × Value))
  | array (items : List Value)
  | experiments (items : List Value)
  | namedExperiments (name : String) (items : List Value)
  | bool (b : Bool)
  /-- `value where condition` -/
  | guarded (value : Value) (condition : Expr)
  /-- `= e` -/
  | expression (e : Expr)
  /-- No value at all; it is not written in any text. -/
  | absent
  deriving Inhabited

namespace Expr

mutual

/-- The structure of an expression: the name of its outermost form and its parts in parentheses. -/
def structureText : Expr → String
  | equal left right => "Equality(" ++ structureText left ++ ", " ++ structureText right ++ ")"
  | literal text => "Literal(" ++ quoted text ++ ")"
  | number value => "Number(" ++ Style.literal.write value ++ ")"
  | ident name => "Ident(" ++ quoted name ++ ")"
  | member base name => "Member(" ++ structureText base ++ ", " ++ quoted name ++ ")"
  | parens inner => "Parentheses(" ++ structureText inner ++ ")"
  | named inner => "Name(" ++ structureText inner ++ ")"
  | call name args => "FunctionCall(" ++ quoted name ++ ", [" ++ ", ".intercalate (argTexts args) ++ "])"

def argTexts : List (String × Expr) → List String
  | [] => []
  | (key, value) :: rest => ("(" ++ quoted key ++ ", " ++ structureText value ++ ")") :: argTexts rest

end

/-- The displayed text of an expression. -/
def display : Expr → String
  | literal text => "\"" ++ text ++ "\""
  | number value => Style.plain.write value
  | ident name => name
  | member base name => display base ++ "." ++ name
  | named inner => "@" ++ display inner
  | e => "fix this expr <" ++ structureText e ++ ">"

end Expr

namespace Value

def tabs (depth : Nat) : String := String.ofList (List.replicate depth '\t')

mutual

/-- A value displayed at some depth: the tabs, then the value. -/
def displayAt (depth : Nat) : Value → String
  | literal text => tabs depth ++ "\"" ++ text ++ "\""
  | number value => tabs depth ++ Style.plain.write value
  | object name fields =>
    tabs depth ++ name ++ "\n" ++ tabs depth ++ "\x7b\n" ++ displayFields depth fields
      ++ tabs depth ++ "\x7d\n"
  | array items => tabs depth ++ "[\n" ++ displayItems depth items ++ tabs depth ++ "]\n"
  | experiments _ => tabs depth ++ "FIXME"
  | namedExperiments _ _ => tabs depth ++ "FIXME"
  | bool b => tabs depth ++ (if b then "true" else "false")
  | guarded value _ => tabs depth ++ displayAt 0 value ++ " where FIXME"
  | expression e => tabs depth ++ "= " ++ e.display
  | absent => tabs depth ++ "NONE VALUE"

/-- The fields of an object: each name on a line of its own, and its value one level deeper. -/
def displayFields (depth : Nat) : List (String × Value) → String
  | [] => ""
  | (key, value) :: rest =>
    tabs depth ++ "\t" ++ key ++ ":\n" ++ displayAt (depth + 1) value ++ ",\n" ++ displayFields depth rest

def displayItems (depth : Nat) : List Value → String
  | [] => ""
  | item :: rest => displayAt (depth + 1) item ++ ",\n" ++ displayItems depth rest

end

/-- The displayed text of a value. -/
def display (v : Value) : String := displayAt 0 v

end Value

end DragonflyFabric.Language
