/-!
Counts and numbers are words of sixty-four bits. A sum or a product that does not fit in a word loses what
is beyond it, and so does a difference below zero.
-/

namespace DragonflyFabric.Word

/-- What a word keeps of a number. -/
def wrap (n : Nat) : Nat := n % 0x10000000000000000

/-- The difference of two words. -/
def sub (a b : Nat) : Nat := wrap (a + 0x10000000000000000 - b)

end DragonflyFabric.Word
