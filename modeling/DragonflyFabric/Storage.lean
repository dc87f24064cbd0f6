/-!
How much can be kept in one place. Items in a row lie in one piece of memory, and a row that would be
longer than such a piece can be is never made: whatever asks for it has no answer.
-/

namespace DragonflyFabric.Storage

/-- The most bytes of one row. -/
def limit : Nat := 0x7fffffffffffffff

/-- Whether a row can have so many items of so many bytes each. -/
def holds (count bytes : Nat) : Bool := count * bytes ≤ limit

end DragonflyFabric.Storage
