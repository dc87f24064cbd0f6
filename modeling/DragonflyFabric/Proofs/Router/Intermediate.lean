import DragonflyFabric.Proofs.Correspondence
import DragonflyFabric.Proofs.Router.Service

/-!
# Intermediate groups are drawn fairly

A draw numbers the groups that are left when two of them are taken out. To number them is to number the others of the
greater one in increasing order, and the others of the smaller one among those: the same numbering that rows have, twice
over. So draws and intermediate groups correspond one to one, whichever of the two groups is the greater:
`invOn_passingOver`.

* `card_wordsGiving`: as many words lead to one intermediate group as to another.
* `intermediate_drawn`: what a router draws, and that it draws nothing where there is no such group.
-/

namespace DragonflyFabric.Router

variable {r : Router} {groups a b destination : Nat}

/-- The groups that are neither of two. -/
def intermediates (groups a b : Nat) : Set Nat := {group | group < groups ∧ group ≠ a ∧ group ≠ b}

/-- The draw that gives a group which is neither of two. -/
def drawGiving (groups a b group : Nat) : Nat :=
  Numbering.absolute.rowOf (min a b) (Numbering.absolute.rowOf (max a b) group groups) (groups - 1)

/-- The words of the random stream that are accepted and lead to a group which is neither of two. -/
def wordsGiving (groups a b group : Nat) : Finset Nat :=
  (Finset.range (2 ^ 64)).filter fun word =>
    (Random.ofWord? (groups - 2) word).map (passingOver a b) = some group

/-- To pass over two groups is to pass over the smaller one first, and then over the greater one. -/
theorem passingOver_eq (groups a b n : Nat) :
    passingOver a b n =
      Numbering.absolute.groupAt (max a b) (Numbering.absolute.groupAt (min a b) n (groups - 1)) groups := rfl

theorem mapsTo_passingOver (ha : a < groups) (hb : b < groups) :
    Set.MapsTo (passingOver a b) (Set.Iio (groups - 2)) (intermediates groups a b) :=
  fun _ hn => passingOver_spec ha hb hn

section Apart

variable (ha : a < groups) (hb : b < groups) (hne : a ≠ b)

include ha hb hne

/-- The number of an intermediate group among the others of the greater one. -/
theorem mapsTo_rowOf_max :
    Set.MapsTo (Numbering.absolute.rowOf (max a b) · groups) (intermediates groups a b)
      (others (groups - 1) (min a b)) := by
  intro group ⟨hg, hga, hgb⟩
  have hmax : max a b < groups := by omega
  have hmin : Numbering.absolute.groupAt (max a b) (min a b) groups = min a b := if_neg (by omega)
  refine ⟨Numbering.rowOf_lt Numbering.inWords_absolute hmax hg (by omega), fun heq => ?_⟩
  -- the smaller one keeps its number
  have hback := Numbering.groupAt_rowOf Numbering.inWords_absolute hmax hg (by omega)
  dsimp only at heq
  rw [heq, hmin] at hback
  omega

theorem mapsTo_drawGiving : Set.MapsTo (drawGiving groups a b) (intermediates groups a b) (Set.Iio (groups - 2)) :=
  fun _ hg => Numbering.mapsTo_rowOf Numbering.inWords_absolute (by omega : min a b < groups - 1)
    (mapsTo_rowOf_max ha hb hne hg)

/-- **Draws and intermediate groups name each other.** -/
theorem invOn_passingOver :
    Set.InvOn (drawGiving groups a b) (passingOver a b) (Set.Iio (groups - 2)) (intermediates groups a b) := by
  have hmin : min a b < groups - 1 := by omega
  have hmax : max a b < groups := by omega
  constructor
  · intro n hn
    rw [passingOver_eq groups, drawGiving,
      Numbering.rowOf_groupAt Numbering.inWords_absolute hmax (Numbering.groupAt_lt Numbering.inWords_absolute hmin hn),
      Numbering.rowOf_groupAt Numbering.inWords_absolute hmin hn]
  · intro group hg
    obtain ⟨hlt, hother⟩ := mapsTo_rowOf_max ha hb hne hg
    rw [passingOver_eq groups, drawGiving, Numbering.groupAt_rowOf Numbering.inWords_absolute hmin hlt hother.symm]
    obtain ⟨hgroup, hga, hgb⟩ := hg
    exact Numbering.groupAt_rowOf Numbering.inWords_absolute hmax hgroup (by omega)

theorem bijOn_passingOver : Set.BijOn (passingOver a b) (Set.Iio (groups - 2)) (intermediates groups a b) :=
  (invOn_passingOver ha hb hne).bijOn (mapsTo_passingOver ha hb) (mapsTo_drawGiving ha hb hne)

/-- **Every intermediate group has the same chances**: as many words give it as any other one. -/
theorem card_wordsGiving (hsize : groups ≤ 2 ^ 64) {group : Nat} (hg : group ∈ intermediates groups a b) :
    (wordsGiving groups a b group).card = 2 ^ (63 - Nat.log2 (groups - 2)) := by
  have hdraw := mapsTo_drawGiving ha hb hne hg
  have hpos : 0 < groups - 2 := Nat.zero_lt_of_lt hdraw
  obtain ⟨hleft, hright⟩ := invOn_passingOver ha hb hne
  rw [← Random.card_words hpos (by omega) hdraw]
  refine congrArg Finset.card (Finset.filter_congr fun word hword => ?_)
  rw [Option.map_eq_some_iff]
  constructor
  · rintro ⟨n, hn, rfl⟩
    rw [hn, hleft (Random.ofWord?_lt hpos (Finset.mem_range.mp hword) hn)]
  · exact fun hn => ⟨_, hn, hright hg⟩

end Apart

/-- **An intermediate group is drawn one to one.** Where there are fewer than three groups there is none, and nothing is
drawn. Otherwise the group is determined by a number that is drawn below the number of groups less two, and such numbers
correspond to the groups that are neither that of the router nor the destination, each to one, whichever of these two
is the greater. So as many words of the random stream lead to one of these groups as to another. -/
theorem intermediate_drawn (hgroup : r.site.group < r.site.parameters.groups)
    (hd : destination < r.site.parameters.groups) (hne : destination ≠ r.site.group) :
    ((r.drawIntermediate destination).1 = none ↔ r.site.parameters.groups < 3) ∧
    (r.site.parameters.groups < 3 → (r.drawIntermediate destination).2 = r) ∧
    (3 ≤ r.site.parameters.groups →
      (Random.draw (r.site.parameters.groups - 2) r.random).1 ∈ Set.Iio (r.site.parameters.groups - 2) ∧
      r.drawIntermediate destination =
        (some (passingOver r.site.group destination (Random.draw (r.site.parameters.groups - 2) r.random).1),
          { r with random := (Random.draw (r.site.parameters.groups - 2) r.random).2 })) ∧
    Set.BijOn (passingOver r.site.group destination) (Set.Iio (r.site.parameters.groups - 2))
      (intermediates r.site.parameters.groups r.site.group destination) ∧
    (r.site.parameters.groups ≤ 2 ^ 64 →
      ∀ group ∈ intermediates r.site.parameters.groups r.site.group destination,
        (wordsGiving r.site.parameters.groups r.site.group destination group).card =
          2 ^ (63 - Nat.log2 (r.site.parameters.groups - 2))) := by
  refine ⟨⟨fun hnone => ?_, fun hfew => ?_⟩, fun hfew => ?_, fun hmany => ?_, bijOn_passingOver hgroup hd hne.symm,
    fun hsize _ hg => card_wordsGiving hgroup hd hne.symm hsize hg⟩
  · by_contra hmany
    rw [drawIntermediate_of_many (Nat.le_of_not_lt hmany)] at hnone
    cases hnone
  · rw [drawIntermediate_of_few hfew]
  · rw [drawIntermediate_of_few hfew]
  · exact ⟨Random.draw_lt (by omega) r.random, drawIntermediate_of_many hmany destination⟩

/-- A router in the third one of four groups. -/
def thirdOfFour : Router where
  site :=
    { parameters := ⟨1, 1, 3, 4, 1⟩
      index := 2
      numbering := .relative
      table := .unbound
      plan := ⟨#[⟨0, 3, .valiant⟩]⟩
      threshold := 2.0
      policy := .sourceHash
      channels := 3 }
  counters := #[0, 0, 0, 0]
  random := .ofSeed 2
  credits := none
  queues := none

/-- Of the two draws for a packet to the first group, zero gives the second group and one gives the fourth. -/
theorem intermediate_drawn_thirdOfFour :
    let r := thirdOfFour
    r.site.group < r.site.parameters.groups ∧ 0 < r.site.parameters.groups ∧ 0 ≠ r.site.group ∧
      (∃ n < 2, (r.drawIntermediate 0).1 = some (passingOver 2 0 n)) ∧ passingOver 2 0 0 = 1 ∧ passingOver 2 0 1 = 3 ∧
      passingOver 2 0 '' Set.Iio 2 = intermediates 4 2 0 ∧
      (wordsGiving 4 2 0 1).card = 2 ^ 62 ∧ (wordsGiving 4 2 0 3).card = 2 ^ 62 := by
  intro r
  have hgroup : r.site.group = 2 := by decide
  have hlog : Nat.log2 (r.site.parameters.groups - 2) = 1 := by decide
  obtain ⟨-, -, hdrawn, hone, hwords⟩ :=
    intermediate_drawn (show r.site.group < r.site.parameters.groups by decide)
      (show 0 < r.site.parameters.groups by decide) (by decide)
  obtain ⟨hlt, heq⟩ := hdrawn (by decide)
  rw [hgroup] at heq hone hwords
  rw [hlog] at hwords
  exact ⟨by decide, by decide, by decide, ⟨_, hlt, congrArg Prod.fst heq⟩, by decide, by decide, hone.image_eq,
    hwords (by decide) 1 ⟨by decide, by decide, by decide⟩, hwords (by decide) 3 ⟨by decide, by decide, by decide⟩⟩

end DragonflyFabric.Router
