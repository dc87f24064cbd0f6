import DragonflyFabric.Proofs.Language.Brackets
import DragonflyFabric.Proofs.Language.Walk
import Mathlib.Data.Nat.Find

/-!
# The parser accepts its grammar

The sets of a chart are closed under the ways in which items come about, with one exception: a finished item that
gives way advances nothing. This loses nothing. Of the finished items of a category and an origin, the first of
those that are ranked highest is kept, `Chart.Walk.exists_kept`, and what waited for one of them is advanced over
that one. Here it counts that ranked and other expressions are never the same tokens: an item that loses to one
of the other kind could otherwise take the rest with it.

So every item that holds has one of its rule, its origin and its length in the chart, `Saturated.reaches`. The
parser rejects just the lists of tokens that have no derivation, and what it answers is the value of one:
`parseTokens_exact`. Besides, nothing but an expression is ambiguous, `parseTokens_cases`.
-/

namespace DragonflyFabric.Language

namespace Rule

theorem rank_eq_gt {rule other : Rule} (h : rule.Ranked) (hother : other.Ranked) (hlt : other.level < rule.level) :
    rule.rank other = some .gt := by
  rcases h with rfl | rfl | rfl <;> rcases hother with rfl | rfl | rfl <;> first | rfl | exact absurd hlt (by decide)

theorem level_lt_of_rank_lt {rule other : Rule} (h : rule.rank other = some .lt) : rule.level < other.level := by
  unfold rank at h
  split at h <;> simp_all [level]

theorem left_of_rank {rule other : Rule} {o : Ordering} (h : rule.rank other = some o) : rule.left = .expression := by
  unfold rank at h
  split at h <;> first | rfl | cases h

theorem ranked_of_level_pos {rule : Rule} (h : 0 < rule.level) : rule.Ranked := by
  unfold level at h
  split at h
  · exact .inr (.inr rfl)
  · exact .inl rfl
  · exact absurd h (Nat.lt_irrefl 0)

end Rule

theorem Item.rivals_iff {item other : Item} : item.rivals other = true ↔
    other.isFinished ∧ other.rule.left = item.rule.left ∧ other.origin = item.origin := by
  simp [rivals, and_assoc]

namespace Chart.Walk

variable {tokens : List Token} {goal : Category} {done : Array (Array Item)} {start set following : Array Item}
  {rules : List Rule} {kept : List Item} {item : Item}

/-- The rival that is first among those that are ranked highest. -/
theorem exists_first (hitem : item ∈ set.toList) (hfinished : item.isFinished) :
    ∃ (i : Nat) (first : Item), set[i]? = some first ∧ item.rivals first ∧
      (∀ other ∈ set.toList, item.rivals other → other.rule.level ≤ first.rule.level) ∧
      ∀ (j : Nat) (other : Item), j < i → set[j]? = some other → item.rivals other →
        other.rule.level < first.rule.level := by
  classical
  -- levels are counted down from two, so that the least number is the highest level
  have hrival : ∃ n, ∃ top ∈ set.toList, item.rivals top ∧ 2 - top.rule.level = n :=
    ⟨_, item, hitem, Item.rivals_iff.mpr ⟨hfinished, rfl, rfl⟩, rfl⟩
  obtain ⟨top, htop, hrivals, hlevel⟩ := Nat.find_spec hrival
  have hhighest : ∀ other ∈ set.toList, item.rivals other → other.rule.level ≤ top.rule.level := by
    intro other hother hagainst
    have hmin := Nat.find_min' hrival ⟨other, hother, hagainst, rfl⟩
    have := other.rule.level_lt
    omega
  obtain ⟨i, hi⟩ := Array.mem_iff_getElem?.mp (Array.mem_toList_iff.mp htop)
  have hplace : ∃ i : Nat, ∃ other, set[i]? = some other ∧ item.rivals other ∧ other.rule.level = top.rule.level :=
    ⟨i, top, hi, hrivals, rfl⟩
  obtain ⟨first, hfirst, hfirstRivals, hfirstLevel⟩ := Nat.find_spec hplace
  refine ⟨_, first, hfirst, hfirstRivals, fun other hother hagainst => ?_, fun j other hj hother hagainst => ?_⟩
  · exact (hhighest other hother hagainst).trans_eq hfirstLevel.symm
  · have hle := hhighest other (Array.mem_toList_iff.mpr (Array.mem_of_getElem? hother)) hagainst
    have hne : other.rule.level ≠ top.rule.level := fun heq => Nat.find_min hplace hj ⟨other, hother, hagainst, heq⟩
    omega

/-- **Of the phrases of a category and an origin, one is kept.** -/
theorem exists_kept (w : Walk tokens goal done start set.size set following rules kept) (hitem : item ∈ set.toList)
    (hfinished : item.isFinished) : ∃ first ∈ kept, first ∈ set.toList ∧ item.rivals first := by
  obtain ⟨i, first, hfirst, hrivals, hhighest, hearlier⟩ := exists_first hitem hfinished
  obtain ⟨hfirstFinished, hleft, horigin⟩ := Item.rivals_iff.mp hrivals
  have hmem : first ∈ set.toList := Array.mem_toList_iff.mpr (Array.mem_of_getElem? hfirst)
  have hway : givesWay set i first = false := by
    by_contra hgives
    rcases givesWay_iff.mp (by simpa using hgives) with
      ⟨j, other, hj, hother, hagainst, hrank⟩ | ⟨other, hother, hagainst, hrank⟩
    · have hotherMem : other ∈ set.toList := Array.mem_toList_iff.mpr (Array.mem_of_getElem? hother)
      obtain ⟨hotherFinished, hsame, hplace⟩ := Item.rivals_iff.mp hagainst
      have hlt := hearlier j other hj hother
        (Item.rivals_iff.mpr ⟨hotherFinished, hsame.trans hleft, hplace.trans horigin⟩)
      have hranked := Rule.ranked_of_level_pos (Nat.zero_lt_of_lt hlt)
      have hotherRanked :=
        (w.sound first hmem).holds.ranked_of_rival (w.sound other hotherMem).holds hfirstFinished hagainst hranked
      exact hrank (Rule.rank_eq_gt hranked hotherRanked hlt)
    · obtain ⟨hotherFinished, hsame, hplace⟩ := Item.rivals_iff.mp hagainst
      have hle := hhighest other hother
        (Item.rivals_iff.mpr ⟨hotherFinished, hsame.trans hleft, hplace.trans horigin⟩)
      have hlt := Rule.level_lt_of_rank_lt hrank
      omega
  have hi : i < set.size := (Array.getElem?_eq_some_iff.mp hfirst).1
  exact ⟨first, w.kept_of i hi first hfirst hfirstFinished hway, hmem, hrivals⟩

end Chart.Walk

/-! ### Closed charts -/

/-- Sets that are closed under the ways in which items come about, up to a place. What waits for the phrases of a
category and an origin is advanced over one of them. -/
structure Saturated (tokens : List Token) (goal : Category) (stop : Nat) (sets : Nat → List Item) : Prop where
  start : .fresh (.whole goal) 0 ∈ sets 0
  predicted : ∀ here < stop, ∀ item ∈ sets here, ∀ c, item.next? = some (.category c) → ∀ rule ∈ c.rules,
    .fresh rule here ∈ sets here
  scanned : ∀ here < stop, ∀ token, tokens[here]? = some token → ∀ item ∈ sets here,
    item.next? = some (.terminal token.terminal) → item.advance (.leaf token) ∈ sets (here + 1)
  completed : ∀ here < stop, ∀ item ∈ sets here, item.isFinished → ∃ node, ∀ parent ∈ sets item.origin,
    parent.next? = some (.category item.rule.left) → parent.advance node ∈ sets here

namespace Saturated

variable {tokens : List Token} {goal : Category} {stop : Nat} {sets : Nat → List Item} {item : Item} {here : Nat}

/-- **Every item that holds is in the chart, but for what it has found.** -/
theorem reaches (hs : Saturated tokens goal stop sets) (h : item.Holds tokens here) (hstop : here < stop)
    (hfresh : .fresh item.rule item.origin ∈ sets item.origin) :
    ∃ found : List Node, found.length = item.found.length ∧ ⟨item.rule, item.origin, found⟩ ∈ sets here := by
  induction h with
  | fresh rule here => exact ⟨[], rfl, hfresh⟩
  | @scan item here token _ hnext htoken ih =>
    obtain ⟨found, hlength, hmem⟩ := ih (by omega) hfresh
    have hnext' : Item.next? ⟨item.rule, item.origin, found⟩ = some (.terminal token.terminal) := by
      rw [Item.next?_eq_some_iff, hlength]
      exact hnext
    refine ⟨.leaf token :: found, by simp [hlength], ?_⟩
    exact hs.scanned here (by omega) token htoken _ hmem hnext'
  | @complete parent item here node _ hnext hrule hitem hfinished _ ihparent ih =>
    have hlt := hitem.origin_lt (hitem.found_ne_nil hfinished)
    obtain ⟨waiting, hwaiting, hparent⟩ := ihparent (by omega) hfresh
    have hnext' : Item.next? ⟨parent.rule, parent.origin, waiting⟩ = some (.category item.rule.left) := by
      rw [Item.next?_eq_some_iff, hwaiting]
      exact hnext
    obtain ⟨found, hfound, hmem⟩ := ih hstop (hs.predicted item.origin (by omega) _ hparent _ hnext' item.rule hrule)
    have hfinished' : Item.isFinished ⟨item.rule, item.origin, found⟩ := by
      rw [Item.isFinished_iff] at hfinished ⊢
      rwa [hfound]
    obtain ⟨other, hother⟩ := hs.completed here (by omega) _ hmem hfinished'
    exact ⟨other :: waiting, by simp [hwaiting], hother _ hparent hnext'⟩

end Saturated

namespace Chart

/-- The set at a place; there is nothing beyond the last. -/
def setAt (sets : Array (Array Item)) (here : Nat) : List Item := (sets[here]?.getD #[]).toList

variable {tokens : List Token} {goal : Category} {done : Array (Array Item)} {start set following : Array Item}
  {rules : List Rule} {kept : List Item} {item : Item}

/-- The item is the rule for the whole text, finished. -/
def isWhole (goal : Category) (item : Item) : Bool := item.rule = .whole goal && item.isFinished

/-- The item is the rule for the whole text that has found nothing. -/
def isBegun (goal : Category) (item : Item) : Bool := item.rule = .whole goal && item.isFresh

/-- A chart whose sets before the last are closed, and whose last set is still to be walked. -/
structure Charted (tokens : List Token) (goal : Category) (done : Array (Array Item)) (start : Array Item) :
    Prop where
  sound : ∀ here, ∀ item ∈ setAt (done.push start) here, item.Sound tokens goal here
  saturated : Saturated tokens goal done.size (setAt (done.push start))
  /-- The rule for the whole text begins once. -/
  begun : (setAt (done.push start) 0).countP (isBegun goal) ≤ 1
  pending : ∀ item ∈ start.toList, isWhole goal item = false

theorem setAt_push_size (sets : Array (Array Item)) (set : Array Item) :
    setAt (sets.push set) sets.size = set.toList := by
  simp [setAt]

theorem setAt_push_of_lt {sets : Array (Array Item)} (set : Array Item) {here : Nat} (h : here < sets.size) :
    setAt (sets.push set) here = setAt sets here := by
  rw [setAt, setAt, Array.getElem?_push_lt h, Array.getElem?_eq_getElem h]

theorem setAt_of_le {sets : Array (Array Item)} {here : Nat} (h : sets.size ≤ here) : setAt sets here = [] := by
  simp [setAt, Array.getElem?_eq_none h]

/-- The rule for the whole text waits for its goal until it has found it. -/
theorem next?_of_whole {s : Symbol} (hrule : item.rule = .whole goal) (hnext : item.next? = some s) :
    s = .category goal ∧ item.found = [] := by
  rw [Item.next?_eq_some_iff, hrule] at hnext
  obtain ⟨hlt, heq⟩ := List.getElem?_eq_some_iff.mp hnext
  have hfound : item.found = [] := List.length_eq_zero_iff.mp (Nat.lt_one_iff.mp hlt)
  simp only [hfound, List.length_nil] at heq
  exact ⟨heq.symm, hfound⟩

namespace Walk

theorem start_subset {k : Nat} (w : Walk tokens goal done start k set following rules kept) :
    start.toList ⊆ set.toList := fun _ hitem =>
  w.perm.mem_iff.mpr (List.mem_append_left _ (List.mem_append_left _ hitem))

theorem copies_subset {k : Nat} (w : Walk tokens goal done start k set following rules kept) (hitem : item ∈ kept) :
    copies done item ⊆ set.toList := fun _ hcopy =>
  w.perm.mem_iff.mpr (List.mem_append_right _ (List.mem_flatMap.mpr ⟨item, hitem, hcopy⟩))

theorem mem_following_iff (w : Walk tokens goal done start set.size set following rules kept) :
    item ∈ following.toList ↔ ∃ tok before, tokens[done.size]? = some tok ∧ before ∈ set.toList ∧
      before.next? = some (.terminal tok.terminal) ∧ item = before.advance (.leaf tok) := by
  have htake : set.toList.take set.size = set.toList := List.take_of_length_le (Nat.le_of_eq Array.length_toList)
  rw [w.following_eq, htake, List.mem_filterMap]
  simp only [Item.scanned?_eq_some_iff]
  constructor
  · rintro ⟨before, hbefore, tok, htok, hnext, rfl⟩
    exact ⟨tok, before, htok, hbefore, hnext, rfl⟩
  · rintro ⟨tok, before, htok, hbefore, hnext, rfl⟩
    exact ⟨before, hbefore, tok, htok, hnext, rfl⟩

theorem rule_ne_whole {k : Nat} (w : Walk tokens goal done start k set following rules kept) {rule : Rule}
    (hrule : rule ∈ rules) : rule ≠ .whole goal := by
  rintro rfl
  cases w.rules_mem _ hrule

/-- Rules that begin are not that of the whole text, and copies have found something. -/
theorem countP_begun_le {k : Nat} (w : Walk tokens goal done start k set following rules kept) :
    set.toList.countP (isBegun goal) ≤ start.toList.countP (isBegun goal) := by
  have hrules : (rules.map (Item.fresh · done.size)).countP (isBegun goal) = 0 := by
    refine List.countP_eq_zero.mpr fun item hitem => ?_
    obtain ⟨rule, hrule, rfl⟩ := List.mem_map.mp hitem
    simp [isBegun, Item.fresh, w.rule_ne_whole hrule]
  have hcopies : (kept.flatMap (copies done)).countP (isBegun goal) = 0 := by
    refine List.countP_eq_zero.mpr fun item hitem => ?_
    obtain ⟨first, -, hcopy⟩ := List.mem_flatMap.mp hitem
    obtain ⟨node, parents, parent, -, -, -, -, rfl⟩ := mem_copies_iff.mp hcopy
    simp [isBegun, Item.isFresh]
  rw [w.perm.countP_eq, List.countP_append, List.countP_append, hrules, hcopies]
  exact Nat.le_refl _

end Walk

theorem charted_begin (tokens : List Token) (goal : Category) :
    Charted tokens goal #[] #[.fresh (.whole goal) 0] := by
  have hset (here : Nat) : setAt (#[].push #[Item.fresh (.whole goal) 0]) here =
      if here = 0 then [.fresh (.whole goal) 0] else [] := by
    cases here <;> simp [setAt]
  constructor
  case sound =>
    intro here item hitem
    rw [hset] at hitem
    split at hitem
    · next h =>
      cases List.mem_singleton.mp hitem
      subst h
      exact ⟨.fresh _ 0, .whole⟩
    · exact absurd hitem List.not_mem_nil
  case saturated =>
    refine ⟨by rw [hset, if_pos rfl]; exact List.mem_singleton_self _, ?_, ?_, ?_⟩
    all_goals exact fun here h => absurd h (Nat.not_lt_zero here)
  case begun =>
    rw [hset, if_pos rfl]
    exact List.countP_le_length
  case pending =>
    intro item hitem
    cases List.mem_singleton.mp hitem
    have hunfinished : (Item.fresh (.whole goal) 0).isFinished = false := rfl
    simp [isWhole, hunfinished]

/-! ### The chart after a walk -/

section

variable {here : Nat}

theorem setAt_next_of_lt (set' : Array Item) (h : here < done.size) :
    setAt ((done.push set).push following) here = setAt (done.push set') here := by
  rw [setAt_push_of_lt _ (by rw [Array.size_push]; omega), setAt_push_of_lt _ h, setAt_push_of_lt _ h]

theorem setAt_next_size (done : Array (Array Item)) (set following : Array Item) :
    setAt ((done.push set).push following) done.size = set.toList := by
  rw [setAt_push_of_lt _ (by rw [Array.size_push]; omega), setAt_push_size]

theorem setAt_next_succ (done : Array (Array Item)) (set following : Array Item) :
    setAt ((done.push set).push following) (done.size + 1) = following.toList := by
  have hsize : (done.push set).size = done.size + 1 := Array.size_push _
  rw [← hsize, setAt_push_size]

/-- What was in a set stays there. -/
theorem setAt_subset_next (w : Walk tokens goal done start set.size set following rules kept) (here : Nat) :
    setAt (done.push start) here ⊆ setAt ((done.push set).push following) here := by
  rcases Nat.lt_trichotomy here done.size with h | rfl | h
  · rw [setAt_next_of_lt start h]
    exact List.Subset.refl _
  · rw [setAt_next_size, setAt_push_size]
    exact w.start_subset
  · rw [setAt_of_le (by rw [Array.size_push]; omega)]
    exact List.nil_subset _

theorem Charted.sound_next (hc : Charted tokens goal done start)
    (w : Walk tokens goal done start set.size set following rules kept)
    (hitem : item ∈ setAt ((done.push set).push following) here) : item.Sound tokens goal here := by
  rcases Nat.lt_trichotomy here done.size with h | rfl | h
  · rw [setAt_next_of_lt start h] at hitem
    exact hc.sound here item hitem
  · rw [setAt_next_size] at hitem
    exact w.sound item hitem
  · rcases Nat.lt_or_ge (done.size + 1) here with h' | h'
    · rw [setAt_of_le (by rw [Array.size_push, Array.size_push]; omega)] at hitem
      exact absurd hitem List.not_mem_nil
    · obtain rfl : here = done.size + 1 := by omega
      rw [setAt_next_succ, w.mem_following_iff] at hitem
      obtain ⟨tok, before, htok, hmem, hnext, rfl⟩ := hitem
      exact (w.sound before hmem).scan hnext htok

/-- What waited for the phrase of a finished item is advanced over the one that is kept. -/
theorem Charted.completed_walk (hproper : ∀ token ∈ tokens, token.Proper)
    (w : Walk tokens goal done start set.size set following rules kept) (hitem : item ∈ set.toList)
    (hfinished : item.isFinished) : ∃ node, ∀ parent ∈ setAt ((done.push set).push following) item.origin,
      parent.next? = some (.category item.rule.left) → parent.advance node ∈ set.toList := by
  obtain ⟨first, hkept, hfirst, hrivals⟩ := w.exists_kept hitem hfinished
  obtain ⟨hfirstFinished, hleft, horigin⟩ := Item.rivals_iff.mp hrivals
  have hholds := (w.sound item hitem).holds
  have hlt := hholds.origin_lt (hholds.found_ne_nil hfinished)
  obtain ⟨node, hnode⟩ := (w.sound first hfirst).holds.exists_node hproper hfirstFinished
  refine ⟨node, fun parent hparent hnext => w.copies_subset hkept ?_⟩
  rw [setAt_next_of_lt set hlt, setAt_push_of_lt _ hlt, setAt, Array.getElem?_eq_getElem hlt] at hparent
  rw [← hleft] at hnext
  exact mem_copies_iff.mpr ⟨node, _, parent, hnode, by rw [horigin, Array.getElem?_eq_getElem hlt]; rfl,
    Array.mem_toList_iff.mp hparent, hnext, rfl⟩

theorem Charted.saturated_next (hproper : ∀ token ∈ tokens, token.Proper) (hc : Charted tokens goal done start)
    (w : Walk tokens goal done start set.size set following rules kept) :
    Saturated tokens goal (done.size + 1) (setAt ((done.push set).push following)) where
  start := setAt_subset_next w 0 hc.saturated.start
  predicted := by
    intro here hlt item hitem c hnext rule hrule
    rcases Nat.lt_or_ge here done.size with h | h
    · rw [setAt_next_of_lt start h] at hitem ⊢
      exact hc.saturated.predicted here h item hitem c hnext rule hrule
    · obtain rfl : here = done.size := by omega
      rw [setAt_next_size] at hitem ⊢
      obtain ⟨i, hi⟩ := List.mem_iff_getElem?.mp hitem
      rw [Array.getElem?_toList] at hi
      exact w.predicted i (Array.getElem?_eq_some_iff.mp hi).1 item c hi hnext rule hrule
  scanned := by
    intro here hlt token htoken item hitem hnext
    rcases Nat.lt_or_ge here done.size with h | h
    · rw [setAt_next_of_lt start h] at hitem
      exact setAt_subset_next w _ (hc.saturated.scanned here h token htoken item hitem hnext)
    · obtain rfl : here = done.size := by omega
      rw [setAt_next_size] at hitem
      rw [setAt_next_succ]
      exact w.mem_following_iff.mpr ⟨token, item, htoken, hitem, hnext, rfl⟩
  completed := by
    intro here hlt item hitem hfinished
    rcases Nat.lt_or_ge here done.size with h | h
    · rw [setAt_next_of_lt start h] at hitem ⊢
      have horigin := (hc.sound here item hitem).holds.origin_le
      rw [setAt_next_of_lt start (by omega)]
      exact hc.saturated.completed here h item hitem hfinished
    · obtain rfl : here = done.size := by omega
      rw [setAt_next_size] at hitem ⊢
      exact completed_walk hproper w hitem hfinished

/-- **The chart stays closed when its last set has been walked.** -/
theorem Charted.next (hproper : ∀ token ∈ tokens, token.Proper) (hc : Charted tokens goal done start)
    (w : Walk tokens goal done start set.size set following rules kept) :
    Charted tokens goal (done.push set) following where
  sound := fun _ _ hitem => hc.sound_next w hitem
  saturated := by
    rw [Array.size_push]
    exact hc.saturated_next hproper w
  begun := by
    have hbegun := hc.begun
    rcases Nat.eq_zero_or_pos done.size with h | h
    · rw [← h, setAt_push_size] at hbegun
      rw [← h, setAt_next_size]
      exact w.countP_begun_le.trans hbegun
    · rwa [setAt_next_of_lt start h]
  pending := by
    intro item hitem
    obtain ⟨tok, before, -, -, hnext, rfl⟩ := w.mem_following_iff.mp hitem
    simp only [isWhole, Bool.and_eq_false_iff, decide_eq_false_iff_not]
    refine .inl fun hrule => ?_
    rw [Item.advance_rule] at hrule
    cases (next?_of_whole hrule hnext).1

end

/-! ### The last set -/

/-- A phrase of the goal completes the whole text once, and no other phrase does. -/
theorem Charted.countP_copies_le (hc : Charted tokens goal done start) (item : Item) :
    (copies done item).countP (isWhole goal) ≤ if waits (0, .fresh (.whole goal) 0) item then 1 else 0 := by
  unfold copies
  split
  · next node parents hnode hparents =>
    have hlt := (Array.getElem?_eq_some_iff.mp hparents).1
    have hplace : setAt (done.push start) item.origin = parents.toList := by
      rw [setAt_push_of_lt _ hlt, setAt, hparents]
      rfl
    -- an item that becomes the whole text is the one that begins it
    have hwhole : ∀ parent ∈ parents.toList, parent.next? = some (.category item.rule.left) →
        isWhole goal (parent.advance node) = true →
          parent.rule = .whole goal ∧ parent.isFresh ∧ waits (0, .fresh (.whole goal) 0) item := by
      intro parent hparent hnext hadvanced
      have hrule : parent.rule = .whole goal := by
        simp only [isWhole, Bool.and_eq_true, decide_eq_true_eq] at hadvanced
        exact hadvanced.1
      obtain ⟨hleft, hfound⟩ := next?_of_whole hrule hnext
      have hsound := hc.sound item.origin parent (hplace ▸ hparent)
      have hfresh := hsound.holds.eq_fresh hfound
      have horigin : item.origin = 0 := by
        rcases hsound.known with hmem | ⟨-, horigin⟩
        · rw [hrule] at hmem
          cases hmem
        · rw [hfresh] at horigin
          exact horigin
      exact ⟨hrule, by rw [Item.isFresh, hfound]; rfl, waits_iff.mpr ⟨horigin.symm, congrArg some hleft.symm⟩⟩
    have hcount : (advanced parents item.rule.left node).toList.countP (isWhole goal) =
        parents.toList.countP fun parent =>
          isWhole goal (parent.advance node) && parent.next? = some (.category item.rule.left) := by
      rw [advanced, Array.toList_map, List.countP_map, Array.toList_filter, List.countP_filter]
      rfl
    rw [hcount]
    split
    · next hwaits =>
      rw [← (waits_iff.mp hwaits).1] at hplace
      refine le_trans (List.countP_mono_left fun parent hparent h => ?_) (hplace ▸ hc.begun)
      rw [Bool.and_eq_true, decide_eq_true_eq] at h
      obtain ⟨hrule, hfresh, -⟩ := hwhole parent hparent h.2 h.1
      simp [isBegun, hrule, hfresh]
    · next hwaits =>
      refine Nat.le_of_eq (List.countP_eq_zero.mpr fun parent hparent h => hwaits ?_)
      rw [Bool.and_eq_true, decide_eq_true_eq] at h
      exact (hwhole parent hparent h.2 h.1).2.2
  · exact Nat.zero_le _

/-- The whole texts in a set are no more than the phrases of the goal that were kept. -/
theorem Charted.countP_whole_le (hc : Charted tokens goal done start) {k : Nat}
    (w : Walk tokens goal done start k set following rules kept) :
    set.toList.countP (isWhole goal) ≤ kept.countP (waits (0, .fresh (.whole goal) 0)) := by
  have hstart : start.toList.countP (isWhole goal) = 0 :=
    List.countP_eq_zero.mpr fun item hitem => by simp [hc.pending item hitem]
  have hrules : (rules.map (Item.fresh · done.size)).countP (isWhole goal) = 0 := by
    refine List.countP_eq_zero.mpr fun item hitem => ?_
    obtain ⟨rule, hrule, rfl⟩ := List.mem_map.mp hitem
    simp [isWhole, Item.fresh, w.rule_ne_whole hrule]
  rw [w.perm.countP_eq, List.countP_append, List.countP_append, hstart, hrules, List.countP_flatMap, countP_eq_sum]
  simp only [Nat.zero_add]
  exact List.sum_le_sum fun item _ => hc.countP_copies_le item

/-- What the last set of a chart is like: the chart is closed, and the whole texts in its last set are no more than
the phrases of the goal that were kept. -/
structure Ends (tokens : List Token) (goal : Category) (last : List Item) : Prop where
  exists_sets : ∃ sets : Nat → List Item, Saturated tokens goal (tokens.length + 1) sets ∧ sets tokens.length = last
  sound : ∀ item ∈ last, item.Sound tokens goal tokens.length
  exists_kept : ∃ kept, Apart kept ∧ last.countP (isWhole goal) ≤ kept.countP (waits (0, .fresh (.whole goal) 0))

theorem Charted.soundSets (hc : Charted tokens goal done start) : SoundSets tokens goal done := by
  intro here parents hparents parent hparent
  refine hc.sound here parent ?_
  rw [setAt_push_of_lt _ (Array.getElem?_eq_some_iff.mp hparents).1, setAt, hparents]
  exact Array.mem_toList_iff.mpr hparent

/-- The last set that there is can be walked to its end, and what each step keeps holds there. -/
theorem Charted.exists_walk_of {P : Nat → Array Item → List Item → Prop} (hc : Charted tokens goal done start)
    {token : Option Token} (htoken : token = tokens[done.size]?)
    (hP : ∀ {k set following rules kept item}, Walk tokens goal done start k set following rules kept →
      set[k]? = some item → P k set kept → P (k + 1) (grown done set k item) (keeps set k item ++ kept))
    (hp : P 0 start []) : ∃ set following rules kept,
      grow done token (room (done.toList.map Array.size).sum start) 0 start #[] = (set, following) ∧
      Walk tokens goal done start set.size set following rules kept ∧ P set.size set kept := by
  have hbegin : Walk tokens goal done start 0 start #[] [] [] :=
    .begin fun item hitem => hc.sound done.size item (by rwa [setAt_push_size])
  subst htoken
  exact hbegin.grow_walk hc.soundSets hP hp (Nat.le_refl _)

theorem Charted.exists_walk (hc : Charted tokens goal done start) {token : Option Token}
    (htoken : token = tokens[done.size]?) : ∃ set following rules kept,
      grow done token (room (done.toList.map Array.size).sum start) 0 start #[] = (set, following) ∧
      Walk tokens goal done start set.size set following rules kept := by
  obtain ⟨set, following, rules, kept, hgrow, w, -⟩ :=
    hc.exists_walk_of (P := fun _ _ _ => True) htoken (fun _ _ _ => trivial) trivial
  exact ⟨set, following, rules, kept, hgrow, w⟩

/-- From an empty set on, all sets are empty. -/
theorem Charted.ends_of_isEmpty (hc : Charted tokens goal done start) (hle : done.size ≤ tokens.length)
    (hempty : start.isEmpty) : Ends tokens goal [] := by
  have hnone (here : Nat) (h : done.size ≤ here) : setAt (done.push start) here = [] := by
    rcases Nat.eq_or_lt_of_le h with rfl | h
    · rw [setAt_push_size, Array.isEmpty_iff.mp hempty]
    · exact setAt_of_le (by rw [Array.size_push]; omega)
  refine ⟨⟨setAt (done.push start), ⟨hc.saturated.start, ?_, ?_, ?_⟩, hnone _ hle⟩, by simp, [], .nil, by simp⟩
  all_goals intro here hlt
  · intro item hitem
    rcases Nat.lt_or_ge here done.size with h | h
    · exact hc.saturated.predicted here h item hitem
    · exact absurd (hnone here h ▸ hitem) List.not_mem_nil
  · intro token htoken item hitem
    rcases Nat.lt_or_ge here done.size with h | h
    · exact hc.saturated.scanned here h token htoken item hitem
    · exact absurd (hnone here h ▸ hitem) List.not_mem_nil
  · intro item hitem
    rcases Nat.lt_or_ge here done.size with h | h
    · exact hc.saturated.completed here h item hitem
    · exact absurd (hnone here h ▸ hitem) List.not_mem_nil

/-- **The chart is closed when the tokens end.** -/
theorem ends_last? (hproper : ∀ token ∈ tokens, token.Proper) (rest : List Token) :
    ∀ {done start}, Charted tokens goal done start → done.size ≤ tokens.length → rest = tokens.drop done.size →
      Ends tokens goal ((last? done (done.toList.map Array.size).sum start rest).getD #[]).toList := by
  induction rest with
  | nil =>
    intro done start hc hle hrest
    have hsize : done.size = tokens.length := Nat.le_antisymm hle (List.drop_eq_nil_iff.mp hrest.symm)
    rw [last?]
    split
    · next hempty => exact hc.ends_of_isEmpty hle hempty
    · have hnone : none = tokens[done.size]? := by simp [hsize]
      obtain ⟨set, following, rules, kept, hgrow, w⟩ := hc.exists_walk hnone
      have hnext := hc.next hproper w
      have hlast : setAt ((done.push set).push following) tokens.length = set.toList := by
        rw [← hsize, setAt_next_size]
      rw [hgrow]
      have hsaturated := hnext.saturated
      rw [Array.size_push, hsize] at hsaturated
      exact ⟨⟨_, hsaturated, hlast⟩, hsize ▸ w.sound, kept, w.kept_apart, hc.countP_whole_le w⟩
  | cons token rest ih =>
    intro done start hc hle hrest
    rw [last?]
    split
    · next hempty => exact hc.ends_of_isEmpty hle hempty
    · have htoken : tokens[done.size]? = some token := by
        rw [← List.head?_drop, ← hrest]
        rfl
      have hlt := (List.getElem?_eq_some_iff.mp htoken).1
      obtain ⟨set, following, rules, kept, hgrow, w⟩ := hc.exists_walk htoken.symm
      rw [hgrow]
      have hrest' : rest = tokens.drop (done.push set).size := by
        rw [Array.size_push, ← List.tail_drop, ← hrest]
        rfl
      have hends := ih (hc.next hproper w) (by rw [Array.size_push]; omega) hrest'
      rw [Array.toList_push, List.map_append, List.sum_append] at hends
      simpa using hends

end Chart

/-! ### The parser -/

variable {tokens : List Token} {goal : Category}

/-- What the parser makes of the last set. An empty set has no whole text. -/
theorem parseTokens_eq (goal : Category) (tokens : List Token) : parseTokens goal tokens =
    match ((Chart.last? #[] 0 #[.fresh (.whole goal) 0] tokens).getD #[]).toList.filter (Chart.isWhole goal) with
    | [] => .error .notInGrammar
    | [item] => (item.node?).elim (.error .notInGrammar) .ok
    | _ => .error .ambiguous := by
  rw [parseTokens]
  cases Chart.last? #[] 0 #[.fresh (.whole goal) 0] tokens <;> rfl

theorem exists_ends (hproper : ∀ token ∈ tokens, token.Proper) (goal : Category) :
    ∃ last, Chart.Ends tokens goal last ∧ parseTokens goal tokens =
      match last.filter (Chart.isWhole goal) with
      | [] => .error .notInGrammar
      | [item] => (item.node?).elim (.error .notInGrammar) .ok
      | _ => .error .ambiguous := by
  have hends := Chart.ends_last? hproper tokens (Chart.charted_begin tokens goal) (Nat.zero_le _) rfl
  rw [show ((#[] : Array (Array Item)).toList.map Array.size).sum = 0 from rfl] at hends
  exact ⟨_, hends, parseTokens_eq goal tokens⟩

/-- A finished whole text stands for the phrase that was found, of which there is a derivation. -/
theorem exists_derives_of_whole {item : Item} (h : item.Sound tokens goal tokens.length)
    (hwhole : Chart.isWhole goal item = true) :
    ∃ node tree, item.node? = some node ∧ Tree.Derives tree goal tokens ∧ tree.node? = some node := by
  simp only [Chart.isWhole, Bool.and_eq_true, decide_eq_true_eq] at hwhole
  obtain ⟨hrule, hfinished⟩ := hwhole
  have hlength := h.holds.found_eq hfinished
  obtain ⟨rule, origin, found⟩ := item
  obtain rfl : rule = .whole goal := hrule
  obtain ⟨node, rfl⟩ := List.length_eq_one_iff.mp hlength
  rcases h.known with hmem | ⟨-, rfl⟩
  · cases hmem
  · obtain ⟨tree, htree, hnode⟩ := Tree.exists_derives h.holds
    exact ⟨node, tree, rfl, htree, hnode⟩

/-- Where there is a derivation, the last set has a finished whole text. -/
theorem Chart.Ends.exists_whole {last : List Item} (hends : Chart.Ends tokens goal last)
    (hproper : ∀ token ∈ tokens, token.Proper) {tree : Tree} (htree : tree.Derives goal tokens) :
    ∃ item, item ∈ last.filter (Chart.isWhole goal) := by
  obtain ⟨sets, hsets, rfl⟩ := hends.exists_sets
  obtain ⟨node, hholds⟩ := htree.holds hproper
  obtain ⟨found, hlength, hmem⟩ := hsets.reaches hholds (Nat.lt_succ_self _) hsets.start
  refine ⟨_, List.mem_filter.mpr ⟨hmem, ?_⟩⟩
  have hfinished : Item.isFinished ⟨.whole goal, 0, found⟩ := Item.isFinished_iff.mpr (Nat.le_of_eq hlength.symm)
  rw [Chart.isWhole, Bool.and_eq_true, decide_eq_true_eq]
  exact ⟨rfl, hfinished⟩

theorem Chart.length_le_one {α : Type} {xs : List α} (h : xs.Pairwise fun _ _ => False) : xs.length ≤ 1 := by
  rcases xs with _ | ⟨first, _ | ⟨second, rest⟩⟩
  · exact Nat.zero_le _
  · exact Nat.le_refl _
  · exact (List.rel_of_pairwise_cons h List.mem_cons_self).elim

/-- Only expressions are ranked, so that of any other goal one phrase is kept. -/
theorem Chart.Ends.length_le_one {last : List Item} (hends : Chart.Ends tokens goal last)
    (hgoal : goal ≠ .expression) : (last.filter (Chart.isWhole goal)).length ≤ 1 := by
  obtain ⟨kept, hapart, hle⟩ := hends.exists_kept
  rw [List.countP_eq_length_filter, List.countP_eq_length_filter] at hle
  refine hle.trans ?_
  have hnone : (kept.filter (Chart.waits (0, .fresh (.whole goal) 0))).Pairwise fun _ _ => False := by
    refine (hapart.filter _).imp_of_mem ?_
    intro later earlier hlater hearlier hranked
    obtain ⟨horigin, hleft⟩ := Chart.waits_iff.mp (List.mem_filter.mp hlater).2
    obtain ⟨horigin', hleft'⟩ := Chart.waits_iff.mp (List.mem_filter.mp hearlier).2
    have hsame := Symbol.category.inj (Option.some.inj (hleft.symm.trans hleft'))
    have hexpression := Rule.left_of_rank (hranked hsame (horigin.symm.trans horigin'))
    exact hgoal ((Symbol.category.inj (Option.some.inj hleft)).trans hexpression)
  exact Chart.length_le_one hnone

/-- **What the parser answers:** that there is no derivation, the value of one, or that an expression has several
readings. -/
theorem parseTokens_cases (hproper : ∀ token ∈ tokens, token.Proper) (goal : Category) :
    (parseTokens goal tokens = .error .notInGrammar ∧ ¬ ∃ tree : Tree, tree.Derives goal tokens) ∨
      (∃ node tree, parseTokens goal tokens = .ok node ∧ Tree.Derives tree goal tokens ∧ tree.node? = some node) ∨
      (parseTokens goal tokens = .error .ambiguous ∧ goal = .expression ∧
        ∃ tree : Tree, tree.Derives goal tokens) := by
  obtain ⟨last, hends, hparse⟩ := exists_ends hproper goal
  cases hlist : last.filter (Chart.isWhole goal) with
  | nil =>
    refine .inl ⟨by rw [hparse, hlist], ?_⟩
    rintro ⟨tree, htree⟩
    obtain ⟨item, hitem⟩ := hends.exists_whole hproper htree
    exact absurd (hlist ▸ hitem) List.not_mem_nil
  | cons first rest =>
    obtain ⟨hmem, hwhole⟩ := List.mem_filter.mp (hlist ▸ List.mem_cons_self : first ∈ last.filter (Chart.isWhole goal))
    obtain ⟨node, tree, hnode, htree, hvalue⟩ := exists_derives_of_whole (hends.sound first hmem) hwhole
    cases rest with
    | nil =>
      refine .inr (.inl ⟨node, tree, ?_, htree, hvalue⟩)
      rw [hparse, hlist]
      dsimp only
      rw [hnode]
      rfl
    | cons second more =>
      refine .inr (.inr ⟨by rw [hparse, hlist], ?_, tree, htree⟩)
      by_contra hgoal
      have := hends.length_le_one hgoal
      rw [hlist, List.length_cons, List.length_cons] at this
      omega

/-- **The parser accepts its grammar.** It rejects the lists of tokens that have no derivation, and these only. What
it answers is the value of a derivation. -/
theorem parseTokens_exact (goal : Category) (tokens : List Token) (hproper : ∀ token ∈ tokens, token.Proper) :
    (parseTokens goal tokens = .error .notInGrammar ↔ ¬ ∃ tree : Tree, tree.Derives goal tokens) ∧
      ∀ node, parseTokens goal tokens = .ok node →
        ∃ tree : Tree, tree.Derives goal tokens ∧ tree.node? = some node := by
  rcases parseTokens_cases hproper goal with ⟨h, hnone⟩ | ⟨node, tree, h, htree, hvalue⟩ | ⟨h, -, hderived⟩
  · rw [h]
    exact ⟨iff_of_true rfl hnone, fun _ h => (by cases h)⟩
  · rw [h]
    refine ⟨iff_of_false (fun h => (by cases h)) (not_not_intro ⟨tree, htree⟩), fun node' hnode' => ?_⟩
    cases hnode'
    exact ⟨tree, htree, hvalue⟩
  · rw [h]
    exact ⟨iff_of_false (fun h => (by cases h)) (not_not_intro hderived), fun _ h => (by cases h)⟩

theorem parseTokens_unopened : parseTokens .expression [.ident "host", .mark .rightParen] = .error .notInGrammar := by
  have hparse : parseTokens .expression [.ident "host", .mark .rightParen] matches .error .notInGrammar := by
    decide +kernel
  split at hparse
  · next h => exact h
  · cases hparse

/-- The name of a member, and an expression with a bracket too many. -/
theorem parseTokens_exact_member :
    (∃ node, parseTokens .expression [.mark .at, .ident "host", .mark .dot, .ident "rank"] = .ok node ∧
      ∃ tree : Tree, tree.Derives .expression [.mark .at, .ident "host", .mark .dot, .ident "rank"] ∧
        tree.node? = some node) ∧
    ¬ ∃ tree : Tree, tree.Derives .expression [.ident "host", .mark .rightParen] := by
  constructor
  · have hok : (parseTokens .expression [.mark .at, .ident "host", .mark .dot, .ident "rank"]).toBool = true := by
      decide +kernel
    cases hparse : parseTokens .expression [.mark .at, .ident "host", .mark .dot, .ident "rank"] with
    | error f =>
      rw [hparse] at hok
      cases hok
    | ok node =>
      refine ⟨node, rfl, (parseTokens_exact .expression _ ?_).2 node hparse⟩
      simp [Token.Proper]
  · refine (parseTokens_exact .expression [.ident "host", .mark .rightParen] ?_).1.mp parseTokens_unopened
    simp [Token.Proper]

end DragonflyFabric.Language
