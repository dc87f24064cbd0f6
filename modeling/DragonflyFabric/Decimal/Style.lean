import DragonflyFabric.Decimal.Shortest

/-!
How a double is written: its shortest digits, laid out by a style. Configurations and byte amounts
are written plainly, numbers inside quoted expressions literally.
-/

namespace DragonflyFabric.Decimal

/-- The decisions of a layout. -/
structure Style where
  /-- A whole number ends in `.0`. -/
  wholePoint : Bool
  /-- From `10 ^ 16` on, and below `10 ^ -4`, the number is written with an exponent. -/
  scientific : Bool

namespace Style

/-- Digits and a point, whatever the magnitude, and no point in a whole number. -/
def plain : Style := ⟨false, false⟩

/-- A number that cannot be taken for an integer. -/
def literal : Style := ⟨true, true⟩

def zeros (n : Nat) : String := String.ofList (List.replicate n '0')

/-- Writes a positive decimal number without an exponent. -/
def positional (style : Style) (n : Digits) : String :=
  let text := toString n.digits
  let point : Int := text.length + n.exponent
  if 0 ≤ n.exponent then
    text ++ zeros n.exponent.toNat ++ (if style.wholePoint then ".0" else "")
  else if 0 < point then
    let cut := point.toNat
    String.ofList (text.toList.take cut) ++ "." ++ String.ofList (text.toList.drop cut)
  else
    "0." ++ zeros (-point).toNat ++ text

/-- Writes a positive decimal number as one digit, the rest behind a point, and an exponent. -/
def exponential (n : Digits) : String :=
  let text := (toString n.digits).toList
  let rest := text.drop 1
  let point := if rest.isEmpty then "" else "." ++ String.ofList rest
  String.ofList (text.take 1) ++ point ++ "e" ++ toString (rest.length + n.exponent)

def positive (style : Style) (n : Digits) : String :=
  let point : Int := (toString n.digits).length + n.exponent
  if style.scientific && (17 ≤ point || point ≤ -4) then exponential n else positional style n

/-- The text of a double. -/
def write (style : Style) (x : Float) : String :=
  match Double.ofFloat x with
  | .nan => "NaN"
  | .infinite negative => if negative then "-inf" else "inf"
  | .finite negative mantissa exponent =>
    let size :=
      if mantissa = 0 then (if style.wholePoint then "0.0" else "0")
      else positive style (shortest mantissa exponent)
    if negative then "-" ++ size else size

end Style

end DragonflyFabric.Decimal
