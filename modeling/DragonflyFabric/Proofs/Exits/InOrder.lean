import DragonflyFabric.Proofs.Accepted
import DragonflyFabric.Proofs.Exits.Filled
import Mathlib.Algebra.Order.Floor.Div
import Mathlib.Data.Finset.Card

/-!
# Links in order

The map that is taken where none is given has the links in order, as many on each router as it takes to place
them all, which is the number of links over that of routers, rounded up. Link `j` is then at position `j / k` and
index `j % k`, for `k` links on each router.

* `answers_spread`: counts that describe a network always have such a map.
* `even_inOrder`: it has every link in one entry and no router gets more than its share.
* `covers_inOrder`: read as rows and slots, the links are those of the exit table, each once.
-/

namespace DragonflyFabric

/-- How many links each router gets, as long as there are some left. -/
def Parameters.linksEach (p : Parameters) : Nat := p.linkCount ⌈/⌉ p.routers

namespace LinkMap

variable {p : Parameters} {m : LinkMap} {position index position' index' link : Nat}

/-- Every link in one entry, and no more of them on a router than it takes to place all. -/
structure Even (m : LinkMap) (p : Parameters) : Prop where
  size_eq : m.entries.size = p.routers * p.exits
  once : ∀ link : Nat, link < p.linkCount → ∃! i : Nat, m.entries[i]? = some (link : Int)
  link_or_idle : ∀ entry ∈ m.entries, (∃ link : Nat, link < p.linkCount ∧ entry = link) ∨ entry = -1
  each_le : ∀ position < p.routers,
    ((Finset.range p.exits).filter fun index => (m.link? p position index).isSome).card ≤ p.linkCount ⌈/⌉ p.routers

/-! ### Places of links -/

/-- The link at a place, where there is one. -/
def linkAt? (p : Parameters) (position index : Nat) : Option Nat :=
  if index < p.linksEach ∧ position * p.linksEach + index < p.linkCount then
    some (position * p.linksEach + index)
  else
    none

theorem linkAt?_eq_some_iff : linkAt? p position index = some link ↔
    index < p.linksEach ∧ link < p.linkCount ∧ position * p.linksEach + index = link := by
  rw [linkAt?]
  split
  · next h =>
    rw [Option.some_inj]
    exact ⟨fun heq => ⟨h.1, heq ▸ h.2, heq⟩, fun h' => h'.2.2⟩
  · next h =>
    refine ⟨fun heq => (by cases heq), ?_⟩
    rintro ⟨hi, hlt, rfl⟩
    exact absurd ⟨hi, hlt⟩ h

theorem linkAt?_inj (h : linkAt? p position index = some link) (h' : linkAt? p position' index' = some link) :
    position = position' ∧ index = index' := by
  obtain ⟨hi, -, heq⟩ := linkAt?_eq_some_iff.mp h
  obtain ⟨hi', -, heq'⟩ := linkAt?_eq_some_iff.mp h'
  exact Grid.place_inj hi hi' (heq.trans heq'.symm)

section Counts

variable (hc : p.Checked)

include hc

/-- The global ports of a router are enough for its links. -/
theorem linksEach_le : p.linksEach ≤ p.exits := (ceilDiv_le_iff_le_mul hc.routers_pos).mpr hc.linkCount_le

/-- All links are placed. -/
theorem linkCount_le_mul_linksEach : p.linkCount ≤ p.routers * p.linksEach :=
  (ceilDiv_le_iff_le_mul hc.routers_pos).mp (Nat.le_refl _)

theorem exists_linkAt (h : link < p.linkCount) :
    ∃ position index, position < p.routers ∧ index < p.exits ∧ linkAt? p position index = some link := by
  have hlt : link < p.linksEach * p.routers := by
    rw [Nat.mul_comm]
    exact Nat.lt_of_lt_of_le h (linkCount_le_mul_linksEach hc)
  have hi : link % p.linksEach < p.linksEach := Nat.mod_lt _ (Nat.pos_of_lt_mul_right hlt)
  exact ⟨link / p.linksEach, link % p.linksEach, Nat.div_lt_of_lt_mul hlt, Nat.lt_of_lt_of_le hi (linksEach_le hc),
    linkAt?_eq_some_iff.mpr ⟨hi, h, Nat.div_add_mod' _ _⟩⟩

end Counts

/-! ### The map -/

/-- The entry of a place. -/
def entryAt (p : Parameters) (position index : Nat) : Int := (linkAt? p position index).elim (-1) (↑·)

/-- The map that has its links in order. -/
def inOrder (p : Parameters) : LinkMap :=
  ⟨(Array.range (p.routers * p.exits)).map fun i => entryAt p (i / p.exits) (i % p.exits)⟩

theorem entryAt_eq_link (h : linkAt? p position index = some link) : entryAt p position index = link := by
  rw [entryAt, h, Option.elim_some]

theorem entryAt_eq_idle (h : linkAt? p position index = none) : entryAt p position index = -1 := by
  rw [entryAt, h, Option.elim_none]

theorem linkAt?_of_entryAt (h : entryAt p position index = (link : Int)) : linkAt? p position index = some link := by
  cases hlink : linkAt? p position index with
  | none =>
    rw [entryAt_eq_idle hlink] at h
    omega
  | some found =>
    rw [entryAt_eq_link hlink] at h
    exact congrArg some (Int.ofNat.inj h)

theorem getElem?_inOrder {i : Nat} {entry : Int} : (inOrder p).entries[i]? = some entry ↔
    i < p.routers * p.exits ∧ entryAt p (i / p.exits) (i % p.exits) = entry := by
  rw [inOrder, Array.getElem?_map, Array.getElem?_range]
  split
  · next h => simp [h]
  · next h => simp [h]

theorem getElem?_inOrder_place (hp : position < p.routers) (hi : index < p.exits) :
    (inOrder p).entries[position * p.exits + index]? = some (entryAt p position index) := by
  exact getElem?_inOrder.mpr ⟨Grid.place_lt hp hi, by rw [Grid.place_div hi, Grid.place_mod hi]⟩

theorem entryAt_bounds (p : Parameters) (position index : Nat) :
    -1 ≤ entryAt p position index ∧ entryAt p position index < p.linkCount := by
  cases hlink : linkAt? p position index with
  | none =>
    rw [entryAt_eq_idle hlink]
    omega
  | some found =>
    have := (linkAt?_eq_some_iff.mp hlink).2.1
    rw [entryAt_eq_link hlink]
    omega

theorem link?_inOrder (hp : position < p.routers) (hi : index < p.exits) :
    (inOrder p).link? p position index =
      (linkAt? p position index).map fun link => (link % p.rows, link / p.rows) := by
  rw [link?, getElem?_inOrder_place hp hi]
  dsimp only
  cases hlink : linkAt? p position index with
  | none =>
    rw [entryAt_eq_idle hlink]
    rfl
  | some found =>
    rw [entryAt_eq_link hlink, if_neg (by omega), Int.toNat_natCast, Option.map_some]

section Counts

variable (hc : p.Checked)

include hc

/-- **The links in order are spread evenly.** -/
theorem even_inOrder : (inOrder p).Even p where
  size_eq := by rw [inOrder, Array.size_map, Array.size_range]
  once := by
    intro link hlink
    obtain ⟨position, index, hp, hi, hat⟩ := exists_linkAt hc hlink
    refine ⟨position * p.exits + index, ?_, ?_⟩
    · dsimp only
      rw [getElem?_inOrder_place hp hi, entryAt_eq_link hat]
    · intro i hentry
      obtain ⟨-, hentry⟩ := getElem?_inOrder.mp hentry
      obtain ⟨hposition, hindex⟩ := linkAt?_inj (linkAt?_of_entryAt hentry) hat
      rw [← hposition, ← hindex, Nat.div_add_mod']
  link_or_idle := by
    intro entry hentry
    obtain ⟨i, hi⟩ := Array.mem_iff_getElem?.mp hentry
    obtain ⟨-, rfl⟩ := getElem?_inOrder.mp hi
    cases hlink : linkAt? p (i / p.exits) (i % p.exits) with
    | none => exact .inr (entryAt_eq_idle hlink)
    | some link => exact .inl ⟨link, (linkAt?_eq_some_iff.mp hlink).2.1, entryAt_eq_link hlink⟩
  each_le := by
    intro position hp
    refine (Finset.card_le_card fun index hindex => ?_).trans_eq (Finset.card_range p.linksEach)
    obtain ⟨hi, hserves⟩ := Finset.mem_filter.mp hindex
    rw [link?_inOrder hp (Finset.mem_range.mp hi), Option.isSome_map] at hserves
    obtain ⟨link, hlink⟩ := Option.isSome_iff_exists.mp hserves
    exact Finset.mem_range.mpr (linkAt?_eq_some_iff.mp hlink).1

/-- The links in order are those of the exit table, if their number is a word. -/
theorem covers_inOrder (hlinks : p.rows * p.links < 2 ^ 64) : (inOrder p).Covers p where
  within := by
    intro position index row slot hp hi hserves
    rw [link?_inOrder hp hi] at hserves
    obtain ⟨link, hlink, hpair⟩ := Option.map_eq_some_iff.mp hserves
    cases hpair
    have hlt : link < p.rows * p.links :=
      Nat.lt_of_lt_of_le (linkAt?_eq_some_iff.mp hlink).2.1 p.linkCount_le_mul
    exact ⟨Nat.mod_lt _ (Nat.pos_of_lt_mul_right hlt), Nat.div_lt_of_lt_mul hlt⟩
  once := by
    intro position index position' index' served hp hi hp' hi' hserves hserves'
    rw [link?_inOrder hp hi] at hserves
    rw [link?_inOrder hp' hi'] at hserves'
    obtain ⟨link, hlink, rfl⟩ := Option.map_eq_some_iff.mp hserves
    obtain ⟨link', hlink', hpair⟩ := Option.map_eq_some_iff.mp hserves'
    obtain ⟨hrow, hslot⟩ := Prod.mk.inj hpair
    have heq : link' = link := by rw [← Nat.div_add_mod link p.rows, ← hrow, ← hslot, Nat.div_add_mod]
    exact linkAt?_inj hlink (heq ▸ hlink')
  served := by
    intro row slot hr hs
    have hlt : slot * p.rows + row < p.linkCount := by
      rw [Parameters.linkCount_eq hlinks, Nat.mul_comm p.rows]
      exact Grid.place_lt hs hr
    obtain ⟨position, index, hp, hi, hlink⟩ := exists_linkAt hc hlt
    refine ⟨position, index, hp, hi, ?_⟩
    rw [link?_inOrder hp hi, hlink, Option.map_some, Grid.place_mod hr, Grid.place_div hr]

end Counts

/-! ### There always is such a map -/

/-- Few enough links are bounded by their number. -/
theorem bound_eq (h : p.linkCount < 0x8000000000000000) : bound p = p.linkCount :=
  Int.bmod_eq_of_le_mul_two (by omega) (by omega)

/-- The entries are the same whether there are links to place or none. -/
theorem spread_eq (hc : p.Checked) (hroom : Storage.holds (p.routers * p.exits) 8) :
    spread p = ofEntries p (inOrder p).entries := by
  have hentries : (inOrder p).entries = (Array.range (p.routers * p.exits)).map fun i =>
      if i % p.exits < p.linksEach ∧ i / p.exits * p.linksEach + i % p.exits < p.linkCount then
        ((i / p.exits * p.linksEach + i % p.exits : Nat) : Int)
      else -1 := by
    refine congrArg (Array.map · _) (funext fun i => ?_)
    rw [entryAt, linkAt?]
    split <;> rfl
  rw [spread]
  simp only [hroom, Bool.not_true, Bool.false_eq_true, if_false]
  split
  · next hzero =>
    refine congrArg (ofEntries p) ?_
    simp only [hentries, hzero, Nat.not_lt_zero, and_false, if_false, Array.map_const', Array.size_range]
  · have hexits : ¬ p.exits < (p.linkCount + p.routers - 1) / p.routers := Nat.not_lt.mpr (linksEach_le hc)
    rw [if_neg (Nat.ne_of_gt hc.routers_pos), if_neg hexits, hentries]
    rfl

/-- **Counts that describe a network have a map with the links in order**, as long as there is room for it. -/
theorem answers_spread_of_holds (hc : p.Checked) (hroom : Storage.holds (p.routers * p.exits) 8 = true) :
    Answers (spread p) (inOrder p) := by
  have hplaces : p.routers * p.exits * 8 ≤ Storage.limit := by simpa [Storage.holds] using hroom
  rw [spread_eq hc hroom]
  refine (decides_ofEntries p _).answers ⟨(even_inOrder hc).size_eq, fun link hlink => ?_⟩
  obtain ⟨i, hi⟩ := Array.mem_iff_getElem?.mp hlink
  obtain ⟨-, rfl⟩ := getElem?_inOrder.mp hi
  have hlinks := hc.linkCount_le
  rw [Storage.limit] at hplaces
  rw [bound_eq (by omega)]
  exact entryAt_bounds p _ _

theorem places_le (hrouters : p.routers ≤ 65536) (hradix : p.radix ≤ 65536) :
    p.routers * p.exits ≤ 65536 * 65536 := by
  refine Nat.mul_le_mul hrouters ?_
  rw [Parameters.radix] at hradix
  omega

theorem answers_spread (hc : p.Checked) (hrouters : p.routers ≤ 65536) (hradix : p.radix ≤ 65536) :
    Answers (spread p) (inOrder p) := by
  have hplaces := places_le hrouters hradix
  refine answers_spread_of_holds hc ?_
  rw [Storage.holds, Storage.limit, decide_eq_true_eq]
  omega

end LinkMap

end DragonflyFabric
