import DragonflyFabric.Fault

/-!
Values read as numbers, truth values, texts and lists. A value of another kind is a fault that keeps the value.
-/

namespace DragonflyFabric.Language.Value

/-- The greatest count; a greater number counts as this one. -/
def greatestCount : Nat := 0xffffffffffffffff

def readNumber : Value → Except Fault Float
  | number x => .ok x
  | v => .error (.value .notNumber v)

/-- A count: a whole number that is not negative. Negative zero is zero. -/
def readCount (v : Value) : Except Fault Nat := do
  let x ← v.readNumber
  match (Decimal.Double.ofFloat x).toInt? with
  | some n => if n < 0 then .error (.value .notCount v) else .ok (min n.toNat greatestCount)
  | none => .error (.value .notCount v)

/-- A whole number of sixty-four bits; one beyond them counts as the nearest that fits. -/
def readInteger (v : Value) : Except Fault Int := do
  let x ← v.readNumber
  match (Decimal.Double.ofFloat x).toInt? with
  | some n => .ok (max (-0x8000000000000000) (min n 0x7fffffffffffffff))
  | none => .error (.value .notInteger v)

def readBool : Value → Except Fault Bool
  | bool b => .ok b
  | v => .error (.value .notBoolean v)

def readLiteral : Value → Except Fault String
  | literal s => .ok s
  | v => .error (.value .notLiteral v)

def readArray : Value → Except Fault (List Value)
  | array items => .ok items
  | v => .error (.value .notArray v)

end DragonflyFabric.Language.Value
