import DragonflyFabric.Language.Token

/-!
From characters to tokens.

At each position the kinds of lexemes are tried in one fixed order, and the first that matches is
taken, whether or not another is longer: keywords, numbers, literals, identifiers, marks, and last
what is skipped. A text with a position where nothing matches has no tokens.
-/

namespace DragonflyFabric.Language

namespace Lexer

def isLetter (c : Char) : Bool := c.isAlpha || c = '_'

/-- The characters an identifier starts with: letters, the underscore and the second half of the
first 256 code points. -/
def isIdentStart (c : Char) : Bool := isLetter c || (0x80 ≤ c.toNat && c.toNat ≤ 0xff)

def isIdentRest (c : Char) : Bool := isIdentStart c || c.isDigit

/-- The characters of the White_Space property. -/
def isBlank (c : Char) : Bool :=
  let code := c.toNat
  (9 ≤ code && code ≤ 13) || code = 0x20 || code = 0x85 || code = 0xa0 || code = 0x1680
    || (0x2000 ≤ code && code ≤ 0x200a) || code = 0x2028 || code = 0x2029 || code = 0x202f
    || code = 0x205f || code = 0x3000

/-- What is left after a given beginning, if the characters begin so. -/
def after? : List Char → List Char → Option (List Char)
  | [], rest => some rest
  | _ :: _, [] => none
  | w :: word, c :: rest => if w = c then after? word rest else none

/-- A keyword is one unless a letter follows; a digit may. -/
def keyword? (word : String) (cs : List Char) : Option (List Char) :=
  match after? word.toList cs with
  | some rest => if rest.head?.any isLetter then none else some rest
  | none => none

/-- The value of a run of decimal digits. -/
def digitsValue (ds : List Char) : Nat := ds.foldl (fun n d => 10 * n + (d.toNat - '0'.toNat)) 0

/-- An exponent, and what follows it. Without digits it is none. -/
def exponent? : List Char → Option (Int × List Char)
  | e :: rest =>
    if e = 'e' || e = 'E' then
      let (negative, rest) :=
        match rest with
        | '-' :: more => (true, more)
        | '+' :: more => (false, more)
        | _ => (false, rest)
      let digits := rest.takeWhile Char.isDigit
      if digits.isEmpty then none
      else
        let size : Int := digitsValue digits
        some (if negative then -size else size, rest.dropWhile Char.isDigit)
    else none
  | [] => none

/-- The digits of a number without sign and exponent: those before the point, those behind it, and
what follows. A point belongs to the number only when a digit follows it. -/
def mantissa? (cs : List Char) : Option (List Char × List Char × List Char) :=
  let whole := cs.takeWhile Char.isDigit
  let rest := cs.dropWhile Char.isDigit
  let fraction :=
    match rest with
    | '.' :: more => more.takeWhile Char.isDigit
    | _ => []
  if !fraction.isEmpty then some (whole, fraction, rest.drop (1 + fraction.length))
  else if !whole.isEmpty then some (whole, [], rest)
  else none

def number? (cs : List Char) : Option (Float × List Char) :=
  let (negative, body) :=
    match cs with
    | '-' :: more => (true, more)
    | _ => (false, cs)
  match mantissa? body with
  | none => none
  | some (whole, fraction, rest) =>
    let digits := digitsValue (whole ++ fraction)
    let (power, rest) := (exponent? rest).getD (0, rest)
    some (Decimal.nearest negative digits (power - fraction.length), rest)

/-- The contents of a literal up to the next quote. A backslash takes the next character along, and
both stay in the contents. -/
def contents? : List Char → Option (List Char)
  | [] => none
  | '"' :: _ => some []
  | '\\' :: c :: rest => (contents? rest).map fun cs => '\\' :: c :: cs
  | ['\\'] => none
  | c :: rest => (contents? rest).map (c :: ·)

/-- Drops as many bytes of the encoded text as are asked for. Within a character there is no such
position. -/
def dropBytes? : Nat → List Char → Option (List Char)
  | 0, cs => some cs
  | _ + 1, [] => none
  | n + 1, c :: cs => if c.utf8Size ≤ n + 1 then dropBytes? (n + 1 - c.utf8Size) cs else none

/-- A literal. It takes as many bytes of the text as it has characters, its quotes included: with
contents beyond ASCII the position behind it lies before its closing quote. -/
def literal? (cs : List Char) : Option (String × List Char) :=
  match cs with
  | '"' :: rest =>
    match contents? rest with
    | none => none
    | some text => (dropBytes? (text.length + 2) cs).map (String.ofList text, ·)
  | _ => none

def ident? : List Char → Option (String × List Char)
  | c :: rest =>
    if isIdentStart c then
      some (String.ofList (c :: rest.takeWhile isIdentRest), rest.dropWhile isIdentRest)
    else none
  | [] => none

def mark? : List Char → Option (Terminal × List Char)
  | '=' :: '=' :: rest => some (.equalEqual, rest)
  | '\x7b' :: rest => some (.leftBrace, rest)
  | '\x7d' :: rest => some (.rightBrace, rest)
  | '[' :: rest => some (.leftBracket, rest)
  | ']' :: rest => some (.rightBracket, rest)
  | '(' :: rest => some (.leftParen, rest)
  | ')' :: rest => some (.rightParen, rest)
  | ',' :: rest => some (.comma, rest)
  | ':' :: rest => some (.colon, rest)
  | '!' :: rest => some (.bang, rest)
  | '@' :: rest => some (.at, rest)
  | '=' :: rest => some (.equal, rest)
  | '.' :: rest => some (.dot, rest)
  | _ => none

/-- What follows a block comment whose opening has been read. `stars` counts the stars just before,
`last` is what follows the last slash that came after two stars or more. A comment ends at the first
slash behind a single star; without one it ends at the last slash behind several. -/
def blockEnd? (stars : Nat) (last : Option (List Char)) : List Char → Option (List Char)
  | [] => last
  | '*' :: rest => blockEnd? (stars + 1) last rest
  | '/' :: rest =>
    if stars = 1 then some rest
    else blockEnd? 0 (if 2 ≤ stars then some rest else last) rest
  | _ :: rest => blockEnd? 0 last rest

/-- A line comment needs the end of its line. -/
def lineEnd? (cs : List Char) : Option (List Char) :=
  match cs.dropWhile (· ≠ '\n') with
  | [] => none
  | _ :: rest => some rest

/-- What is left after blanks or after one comment. -/
def skip? : List Char → Option (List Char)
  | '/' :: '/' :: rest => lineEnd? rest
  | '/' :: '*' :: rest => blockEnd? 0 none rest
  | c :: rest => if isBlank c then some (rest.dropWhile isBlank) else none
  | [] => none

/-- The lexeme at the front: a token, or nothing when the lexeme is skipped, and what follows. -/
def lexeme? (cs : List Char) : Option (Option Token × List Char) :=
  ((keyword? "true" cs).map fun rest => (some (.mark .trueWord), rest))
  <|> ((keyword? "false" cs).map fun rest => (some (.mark .falseWord), rest))
  <|> ((keyword? "where" cs).map fun rest => (some (.mark .whereWord), rest))
  <|> ((number? cs).map fun (value, rest) => (some (.number value), rest))
  <|> ((literal? cs).map fun (text, rest) => (some (.literal text), rest))
  <|> ((ident? cs).map fun (name, rest) => (some (.ident name), rest))
  <|> ((mark? cs).map fun (terminal, rest) => (some (.mark terminal), rest))
  <|> ((skip? cs).map fun rest => (none, rest))

/-- The tokens of a text of at most so many lexemes. -/
def tokensWithin? : Nat → List Char → Option (List Token)
  | _, [] => some []
  | 0, _ => none
  | lexemes + 1, cs =>
    match lexeme? cs with
    | none => none
    | some (token, rest) => (tokensWithin? lexemes rest).map fun more => token.toList ++ more

/-- All tokens of a text, in order; none when some position begins no lexeme. Every lexeme takes at
least one character, so a text has no more lexemes than characters. -/
def tokens? (cs : List Char) : Option (List Token) := tokensWithin? cs.length cs

end Lexer

end DragonflyFabric.Language
