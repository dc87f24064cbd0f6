import DragonflyFabric.Parameters.Basic
import DragonflyFabric.Storage
import Mathlib.Algebra.Order.Ring.Nat

/-!
# Words

What fits in a word is kept as it is (`wrap_of_lt`, `sub_of_le`). Nothing else is used of words: every count and every
place of a network that works is small enough, and `Parameters.InWords` says so of the counts it is made from.

The numbers of ports and of routers stand in the definitions as they are, without being wrapped. They are those of a
network whose ports and routers can be counted, and what is stated of ports is stated for `Parameters.InWords`, what is
stated of a whole network for `Parameters.Countable`, also where a proof has no need of it.
-/

namespace DragonflyFabric

namespace Word

variable {n a b : Nat}

theorem wrap_of_lt (h : n < 2 ^ 64) : wrap n = n := Nat.mod_eq_of_lt h

theorem wrap_lt (n : Nat) : wrap n < 2 ^ 64 := Nat.mod_lt n (by decide)

theorem wrap_le (n : Nat) : wrap n ≤ n := Nat.mod_le n _

/-- A product may be wrapped on the way. -/
theorem wrap_wrap_mul (a b : Nat) : wrap (wrap a * b) = wrap (a * b) := Nat.mod_mul_mod a b _

theorem sub_of_le (h : b ≤ a) (ha : a < 2 ^ 64) : sub a b = a - b := by
  have he : a + 0x10000000000000000 - b = a - b + 0x10000000000000000 := by omega
  rw [sub, wrap, he, Nat.add_mod_right, Nat.mod_eq_of_lt (by omega)]

end Word

/-- What is kept in one place is far less than there are words. -/
theorem Storage.le_of_holds {count bytes : Nat} (h : Storage.holds count bytes) : count * bytes < 2 ^ 63 :=
  Nat.lt_succ_of_le (of_decide_eq_true h)

/-- A row has fewer places than there are words. -/
theorem Storage.count_le {count bytes : Nat} (hbytes : 0 < bytes) (h : Storage.holds count bytes) :
    count ≤ 2 ^ 64 := by
  have hle : count ≤ count * bytes := Nat.le_mul_of_pos_right count hbytes
  have := Storage.le_of_holds h
  omega

theorem Storage.holds_of_le {count fewer bytes : Nat} (h : Storage.holds count bytes) (hle : fewer ≤ count) :
    Storage.holds fewer bytes :=
  decide_eq_true (Nat.le_trans (Nat.mul_le_mul_right bytes hle) (of_decide_eq_true h))

/-- The counts of the ports of a router, and of the global ports and the global links of a group, are words. -/
structure Parameters.InWords (p : Parameters) : Prop where
  radix_lt : p.radix < 2 ^ 64
  exits_lt : p.routers * p.exits < 2 ^ 64
  links_lt : p.rows * p.links < 2 ^ 64

/-- So is the count of all hosts, and with it that of all routers. -/
structure Parameters.Countable (p : Parameters) : Prop extends p.InWords where
  hosts_lt : p.hosts * p.routers * p.groups < 2 ^ 64

theorem Parameters.linkCount_le_mul (p : Parameters) : p.linkCount ≤ p.rows * p.links := Word.wrap_le _

theorem Parameters.linkCount_eq {p : Parameters} (hlinks : p.rows * p.links < 2 ^ 64) :
    p.linkCount = p.rows * p.links :=
  Word.wrap_of_lt hlinks

end DragonflyFabric
