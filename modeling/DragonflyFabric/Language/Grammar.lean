import DragonflyFabric.Language.Token
import DragonflyFabric.Language.Value

/-!
The grammar of the configuration language as data: its categories, its rules, what each rule builds
from the parts it joins, and which of two competing rules gives way.
-/

namespace DragonflyFabric.Language

inductive Category
  /-- The whole text. -/
  | text
  | value | object | members | pair | array | elements
  | expression | call | arguments | argument
  deriving DecidableEq

inductive Symbol
  | terminal (t : Terminal)
  | category (c : Category)
  deriving DecidableEq

inductive Rule
  /-- The whole text is one phrase of the category asked for. -/
  | whole (goal : Category)
  | valueLiteral | valueNumber | valueObject | valueArray | valueExperiments
  | valueNamedExperiments | valueTrue | valueFalse | valueGuarded | valueExpression
  | objectBare | objectEmpty | objectFull | objectTrailing
  | membersOne | membersMore | pair
  | arrayEmpty | arrayFull | arrayTrailing
  | elementsOne | elementsMore
  | exprEqual | exprLiteral | exprNumber | exprIdent | exprMember | exprParens | exprNamed | exprCall
  | callEmpty | callFull | callTrailing
  | argumentsOne | argumentsMore | argument
  deriving DecidableEq

/-- What a phrase stands for. Fields, elements and arguments stand latest first until their list is closed. -/
inductive Node
  | leaf (token : Token)
  | value (v : Value)
  | object (v : Value)
  | members (fields : List (String × Value))
  | pair (key : String) (v : Value)
  | array (items : List Value)
  | elements (items : List Value)
  | expression (e : Expr)
  | call (e : Expr)
  | arguments (args : List (String × Expr))
  | argument (key : String) (e : Expr)

namespace Rule

/-- The category a rule makes a phrase of. -/
def left : Rule → Category
  | whole _ => .text
  | valueLiteral | valueNumber | valueObject | valueArray | valueExperiments
  | valueNamedExperiments | valueTrue | valueFalse | valueGuarded | valueExpression => .value
  | objectBare | objectEmpty | objectFull | objectTrailing => .object
  | membersOne | membersMore => .members
  | pair => .pair
  | arrayEmpty | arrayFull | arrayTrailing => .array
  | elementsOne | elementsMore => .elements
  | exprEqual | exprLiteral | exprNumber | exprIdent | exprMember | exprParens | exprNamed
  | exprCall => .expression
  | callEmpty | callFull | callTrailing => .call
  | argumentsOne | argumentsMore => .arguments
  | argument => .argument

/-- The symbols a rule joins. -/
def right : Rule → List Symbol
  | whole goal => [.category goal]
  | valueLiteral => [.terminal .literal]
  | valueNumber => [.terminal .number]
  | valueObject => [.category .object]
  | valueArray => [.category .array]
  | valueExperiments => [.terminal .bang, .category .array]
  | valueNamedExperiments => [.terminal .ident, .terminal .bang, .category .array]
  | valueTrue => [.terminal .trueWord]
  | valueFalse => [.terminal .falseWord]
  | valueGuarded => [.category .value, .terminal .whereWord, .category .expression]
  | valueExpression => [.terminal .equal, .category .expression]
  | objectBare => [.terminal .ident]
  | objectEmpty => [.terminal .ident, .terminal .leftBrace, .terminal .rightBrace]
  | objectFull =>
    [.terminal .ident, .terminal .leftBrace, .category .members, .terminal .rightBrace]
  | objectTrailing =>
    [.terminal .ident, .terminal .leftBrace, .category .members, .terminal .comma,
      .terminal .rightBrace]
  | membersOne => [.category .pair]
  | membersMore => [.category .members, .terminal .comma, .category .pair]
  | pair => [.terminal .ident, .terminal .colon, .category .value]
  | arrayEmpty => [.terminal .leftBracket, .terminal .rightBracket]
  | arrayFull => [.terminal .leftBracket, .category .elements, .terminal .rightBracket]
  | arrayTrailing =>
    [.terminal .leftBracket, .category .elements, .terminal .comma, .terminal .rightBracket]
  | elementsOne => [.category .value]
  | elementsMore => [.category .elements, .terminal .comma, .category .value]
  | exprEqual => [.category .expression, .terminal .equalEqual, .category .expression]
  | exprLiteral => [.terminal .literal]
  | exprNumber => [.terminal .number]
  | exprIdent => [.terminal .ident]
  | exprMember => [.category .expression, .terminal .dot, .terminal .ident]
  | exprParens => [.terminal .leftParen, .category .expression, .terminal .rightParen]
  | exprNamed => [.terminal .at, .category .expression]
  | exprCall => [.category .call]
  | callEmpty => [.terminal .ident, .terminal .leftBrace, .terminal .rightBrace]
  | callFull =>
    [.terminal .ident, .terminal .leftBrace, .category .arguments, .terminal .rightBrace]
  | callTrailing =>
    [.terminal .ident, .terminal .leftBrace, .category .arguments, .terminal .comma,
      .terminal .rightBrace]
  | argumentsOne => [.category .argument]
  | argumentsMore => [.category .arguments, .terminal .comma, .category .argument]
  | argument => [.terminal .ident, .terminal .colon, .category .expression]

/-- What a rule builds from its parts, given in order. Parts of another shape than the symbols of the
rule build nothing. -/
def build : Rule → List Node → Option Node
  | whole _, [node] => some node
  | valueLiteral, [.leaf (.literal s)] => some (.value (.literal s))
  | valueNumber, [.leaf (.number x)] => some (.value (.number x))
  | valueObject, [.object v] => some (.value v)
  | valueArray, [.array items] => some (.value (.array items))
  | valueExperiments, [.leaf _, .array items] => some (.value (.experiments items))
  | valueNamedExperiments, [.leaf (.ident name), .leaf _, .array items] =>
    some (.value (.namedExperiments name items))
  | valueTrue, [.leaf _] => some (.value (.bool true))
  | valueFalse, [.leaf _] => some (.value (.bool false))
  | valueGuarded, [.value v, .leaf _, .expression e] => some (.value (.guarded v e))
  | valueExpression, [.leaf _, .expression e] => some (.value (.expression e))
  | objectBare, [.leaf (.ident name)] => some (.object (.object name []))
  | objectEmpty, [.leaf (.ident name), .leaf _, .leaf _] => some (.object (.object name []))
  | objectFull, [.leaf (.ident name), .leaf _, .members fields, .leaf _] =>
    some (.object (.object name fields.reverse))
  | objectTrailing, [.leaf (.ident name), .leaf _, .members fields, .leaf _, .leaf _] =>
    some (.object (.object name fields.reverse))
  | membersOne, [.pair key v] => some (.members [(key, v)])
  | membersMore, [.members fields, .leaf _, .pair key v] => some (.members ((key, v) :: fields))
  | pair, [.leaf (.ident key), .leaf _, .value v] => some (.pair key v)
  | arrayEmpty, [.leaf _, .leaf _] => some (.array [])
  | arrayFull, [.leaf _, .elements items, .leaf _] => some (.array items.reverse)
  | arrayTrailing, [.leaf _, .elements items, .leaf _, .leaf _] => some (.array items.reverse)
  | elementsOne, [.value v] => some (.elements [v])
  | elementsMore, [.elements items, .leaf _, .value v] => some (.elements (v :: items))
  | exprEqual, [.expression l, .leaf _, .expression r] => some (.expression (.equal l r))
  | exprLiteral, [.leaf (.literal s)] => some (.expression (.literal s))
  | exprNumber, [.leaf (.number x)] => some (.expression (.number x))
  | exprIdent, [.leaf (.ident name)] => some (.expression (.ident name))
  | exprMember, [.expression e, .leaf _, .leaf (.ident name)] => some (.expression (.member e name))
  | exprParens, [.leaf _, .expression e, .leaf _] => some (.expression (.parens e))
  | exprNamed, [.leaf _, .expression e] => some (.expression (.named e))
  | exprCall, [.call e] => some (.expression e)
  | callEmpty, [.leaf (.ident name), .leaf _, .leaf _] => some (.call (.call name []))
  | callFull, [.leaf (.ident name), .leaf _, .arguments args, .leaf _] =>
    some (.call (.call name args.reverse))
  | callTrailing, [.leaf (.ident name), .leaf _, .arguments args, .leaf _, .leaf _] =>
    some (.call (.call name args.reverse))
  | argumentsOne, [.argument key e] => some (.arguments [(key, e)])
  | argumentsMore, [.arguments args, .leaf _, .argument key e] =>
    some (.arguments ((key, e) :: args))
  | argument, [.leaf (.ident key), .leaf _, .expression e] => some (.argument key e)
  | _, _ => none

/-- How a rule ranks against another that made the same phrase; only equality, member access and names
are ranked. `lt` gives way and `gt` does not. -/
def rank : Rule → Rule → Option Ordering
  | exprEqual, exprEqual | exprMember, exprMember | exprNamed, exprNamed => some .eq
  | exprEqual, exprMember | exprEqual, exprNamed | exprNamed, exprMember => some .gt
  | exprMember, exprEqual | exprMember, exprNamed | exprNamed, exprEqual => some .lt
  | _, _ => none

end Rule

/-- The rules of a category, in the order in which they are tried. -/
def Category.rules : Category → List Rule
  | text => []
  | value =>
    [.valueLiteral, .valueNumber, .valueObject, .valueArray, .valueExperiments,
      .valueNamedExperiments, .valueTrue, .valueFalse, .valueGuarded, .valueExpression]
  | object => [.objectBare, .objectEmpty, .objectFull, .objectTrailing]
  | members => [.membersOne, .membersMore]
  | pair => [.pair]
  | array => [.arrayEmpty, .arrayFull, .arrayTrailing]
  | elements => [.elementsOne, .elementsMore]
  | expression =>
    [.exprEqual, .exprLiteral, .exprNumber, .exprIdent, .exprMember, .exprParens, .exprNamed,
      .exprCall]
  | call => [.callEmpty, .callFull, .callTrailing]
  | arguments => [.argumentsOne, .argumentsMore]
  | argument => [.argument]

end DragonflyFabric.Language
