import DragonflyFabric.Proofs.Language.Derivations
import Mathlib.Algebra.Order.BigOperators.Group.List
import Mathlib.Algebra.Order.Ring.Nat
import Mathlib.Data.List.Perm.Subperm

/-!
# The walk through one set

A set of the chart grows while it is walked. What a step adds to it is said once, by `Chart.Step`: the rules of a
category that are not there yet, or the copies of the items that have waited for a phrase, or nothing. Everything
that is known of a set, `Chart.Walk`, follows from that.

The walk comes to its end. Each rule begins once, and no more than three phrases of a category and an origin are
kept, since each of them is ranked above those before it, so that the set has room for all that is added:
`Chart.Walk.size_le`.
-/

namespace DragonflyFabric.Language

/-! ### Ranks and numbers of rules -/

namespace Rule

/-- How high a rule is ranked, among those that are. -/
def level : Rule → Nat
  | exprNamed => 1
  | exprEqual => 2
  | _ => 0

theorem level_lt (rule : Rule) : rule.level < 3 := by
  unfold level
  split <;> decide

theorem level_lt_of_rank {rule other : Rule} (h : rule.rank other = some .gt) : other.level < rule.level := by
  unfold rank at h
  split at h <;> simp_all [level]

/-- The rules of the grammar. -/
def all : List Rule :=
  [Category.value, .object, .members, .pair, .array, .elements, .expression, .call, .arguments, .argument].flatMap
    Category.rules

theorem mem_all {rule : Rule} (h : rule ∈ rule.left.rules) : rule ∈ all := by
  rw [all, List.mem_flatMap]
  refine ⟨rule.left, ?_, h⟩
  cases hleft : rule.left with
  | text =>
    rw [hleft] at h
    cases h
  | _ => decide

end Rule

/-! ### Items of a run -/

namespace Item

/-- A rule begins where its category is expected, and that for the whole text at the start. -/
inductive Begins (tokens : List Token) (goal : Category) : Rule → Nat → Prop
  | whole : Begins tokens goal (.whole goal) 0
  | expected {item : Item} {here : Nat} {c : Category} {rule : Rule} : Begins tokens goal item.rule item.origin →
    item.Holds tokens here → item.next? = some (.category c) → rule ∈ c.rules → Begins tokens goal rule here

/-- An item that holds, with a rule that begins at its origin. -/
structure Sound (tokens : List Token) (goal : Category) (item : Item) (here : Nat) : Prop where
  holds : item.Holds tokens here
  begins : Begins tokens goal item.rule item.origin

/-- What an item becomes by the next token. -/
def scanned? (token : Option Token) (item : Item) : Option Item :=
  match item.next?, token with
  | some (.terminal t), some token => if token.terminal = t then some (item.advance (.leaf token)) else none
  | _, _ => none

theorem scanned?_eq_some_iff {token : Option Token} {item scanned : Item} : item.scanned? token = some scanned ↔
    ∃ tok, token = some tok ∧ item.next? = some (.terminal tok.terminal) ∧ scanned = item.advance (.leaf tok) := by
  unfold scanned?
  split
  · next t tok hnext =>
    rw [hnext]
    constructor
    · intro h
      split at h
      · next heq => exact ⟨tok, rfl, by rw [heq], (Option.some.inj h).symm⟩
      · cases h
    · rintro ⟨tok', htok, ht, rfl⟩
      cases htok
      cases ht
      exact if_pos rfl
  · next hnone =>
    refine ⟨fun h => (by cases h), ?_⟩
    rintro ⟨tok, rfl, hnext, -⟩
    exact absurd rfl (hnone _ _ hnext)

/-- No other rule joins a phrase of the whole text. -/
theorem eq_whole_of_next? {item : Item} (h : item.next? = some (.category .text)) : item.rule = .whole .text := by
  have hmem := List.mem_of_getElem? (next?_eq_some_iff.mp h)
  cases hrule : item.rule <;> rw [hrule] at hmem <;> simp_all [Rule.right]

namespace Sound

variable {tokens : List Token} {goal : Category} {item parent : Item} {here : Nat}

/-- The rule is one of the grammar or that of the whole text. -/
theorem known (h : item.Sound tokens goal here) :
    item.rule ∈ item.rule.left.rules ∨ item.rule = .whole goal ∧ item.origin = 0 := by
  rcases item with ⟨rule, origin, found⟩
  cases h.begins with
  | whole => exact .inr ⟨rfl, rfl⟩
  | @expected waiting _ c _ _ _ _ hmem =>
    refine .inl ?_
    dsimp only
    rwa [Category.left_of_mem hmem]

/-- The rules of a category begin where an item expects it. -/
theorem fresh {c : Category} {rule : Rule} (h : item.Sound tokens goal here) (hnext : item.next? = some (.category c))
    (hmem : rule ∈ c.rules) : (Item.fresh rule here).Sound tokens goal here :=
  ⟨.fresh rule here, .expected h.begins h.holds hnext hmem⟩

theorem scan {tok : Token} (h : item.Sound tokens goal here) (hnext : item.next? = some (.terminal tok.terminal))
    (htoken : tokens[here]? = some tok) : (item.advance (.leaf tok)).Sound tokens goal (here + 1) :=
  ⟨h.holds.scan hnext htoken, h.begins⟩

/-- The rule of a phrase that is waited for is one of the grammar. -/
theorem rule_mem (h : item.Sound tokens goal here) (hfinished : item.isFinished)
    (hparent : parent.Sound tokens goal item.origin) (hnext : parent.next? = some (.category item.rule.left)) :
    item.rule ∈ item.rule.left.rules := by
  rcases h.known with hmem | ⟨hwhole, -⟩
  · exact hmem
  · rw [hwhole] at hnext
    have hparentRule := eq_whole_of_next? hnext
    have hgoal : goal = .text := by
      rcases hparent.known with hmem | ⟨hrule, -⟩
      · rw [hparentRule] at hmem
        cases hmem
      · rw [hrule] at hparentRule
        exact Rule.whole.inj hparentRule
    -- a text made of a whole text would need a rule for it
    obtain ⟨rule, origin, found⟩ := item
    obtain rfl : rule = .whole goal := hwhole
    obtain ⟨node, rfl⟩ := List.length_eq_one_iff.mp (h.holds.found_eq hfinished)
    obtain ⟨inner, -, hinner, -⟩ := h.holds.of_category rfl rfl
    rw [hgoal] at hinner
    cases hinner

theorem complete {node : Node} (h : item.Sound tokens goal here) (hfinished : item.isFinished)
    (hnode : item.node? = some node) (hparent : parent.Sound tokens goal item.origin)
    (hnext : parent.next? = some (.category item.rule.left)) : (parent.advance node).Sound tokens goal here :=
  ⟨.complete hparent.holds hnext (h.rule_mem hfinished hparent hnext) h.holds hfinished hnode, hparent.begins⟩

end Sound

end Item

/-! ### One step -/

namespace Chart

variable {done : Array (Array Item)} {token : Option Token} {k steps : Nat} {item : Item}
  {set set' following : Array Item}

/-- The rules that are not in a set yet join it. -/
theorem exists_predicted (rules : List Rule) (here : Nat) (set : Array Item) : ∃ added : List Rule,
    (rules.foldl (fun set rule =>
      if set.any fun i => i.rule = rule && i.isFresh then set else set.push (.fresh rule here)) set).toList =
        set.toList ++ added.map (Item.fresh · here) ∧
      added.Nodup ∧ (∀ rule ∈ added, rule ∈ rules ∧ ∀ i ∈ set.toList, i.isFresh → i.rule ≠ rule) ∧
      ∀ rule ∈ rules, ∃ i ∈ set.toList ++ added.map (Item.fresh · here), i.rule = rule ∧ i.isFresh := by
  induction rules generalizing set with
  | nil => exact ⟨[], by simp, .nil, by simp, by simp⟩
  | cons first rest ih =>
    rw [List.foldl_cons]
    by_cases hany : set.any fun i => i.rule = first && i.isFresh
    · rw [if_pos hany]
      obtain ⟨added, heq, hnodup, hadded, hthere⟩ := ih set
      refine ⟨added, heq, hnodup, fun rule hrule => ?_, fun rule hrule => ?_⟩
      · exact ⟨List.mem_cons_of_mem _ (hadded rule hrule).1, (hadded rule hrule).2⟩
      · rcases List.mem_cons.mp hrule with rfl | hrule
        · obtain ⟨i, hi, hfirst⟩ := Array.any_eq_true'.mp hany
          simp only [Bool.and_eq_true, decide_eq_true_eq] at hfirst
          exact ⟨i, List.mem_append_left _ hi.val, hfirst⟩
        · exact hthere rule hrule
    · rw [if_neg hany]
      obtain ⟨added, heq, hnodup, hadded, hthere⟩ := ih (set.push (.fresh first here))
      rw [Array.toList_push] at heq hadded hthere
      have hfresh : Item.fresh first here ∈ set.toList ++ [Item.fresh first here] := by simp
      have hfirst : first ∉ added := fun hmem => (hadded first hmem).2 _ hfresh rfl rfl
      refine ⟨first :: added, by rw [heq, List.append_assoc]; rfl, List.nodup_cons.mpr ⟨hfirst, hnodup⟩,
        fun rule hrule => ?_, fun rule hrule => ?_⟩
      · rcases List.mem_cons.mp hrule with rfl | hrule
        · refine ⟨List.mem_cons_self, fun i hi hfresh heq => hany ?_⟩
          exact Array.any_eq_true'.mpr ⟨i, ⟨hi⟩, by simp [heq, hfresh]⟩
        · exact ⟨List.mem_cons_of_mem _ (hadded rule hrule).1,
            fun i hi => (hadded rule hrule).2 i (List.mem_append_left _ hi)⟩
      · rcases List.mem_cons.mp hrule with rfl | hrule
        · exact ⟨.fresh rule here, by simp, rfl, rfl⟩
        · obtain ⟨i, hi, hi'⟩ := hthere rule hrule
          exact ⟨i, by simpa using hi, hi'⟩

/-- The copies of the items that waited for a phrase, advanced over it. -/
def copies (done : Array (Array Item)) (item : Item) : List Item :=
  match item.node?, done[item.origin]? with
  | some node, some parents => (advanced parents item.rule.left node).toList
  | _, _ => []

theorem mem_copies_iff {copy : Item} : copy ∈ copies done item ↔ ∃ node parents parent, item.node? = some node ∧
    done[item.origin]? = some parents ∧ parent ∈ parents ∧ parent.next? = some (.category item.rule.left) ∧
    copy = parent.advance node := by
  unfold copies
  split
  · next node parents hnode hparents =>
    rw [hnode, hparents]
    simp only [advanced, Array.toList_map, Array.toList_filter, List.mem_map, List.mem_filter, decide_eq_true_eq,
      Array.mem_toList_iff]
    constructor
    · rintro ⟨parent, ⟨hparent, hnext⟩, rfl⟩
      exact ⟨node, parents, parent, rfl, rfl, hparent, hnext, rfl⟩
    · rintro ⟨_, _, parent, ⟨⟩, ⟨⟩, hparent, hnext, rfl⟩
      exact ⟨parent, ⟨hparent, hnext⟩, rfl⟩
  · next hnone =>
    refine ⟨fun h => absurd h List.not_mem_nil, ?_⟩
    rintro ⟨node, parents, -, hnode, hparents, -⟩
    exact (hnone node parents hnode hparents).elim

/-- What a finished item gives way to: an earlier rival that it is not ranked above, or one that is ranked above it. -/
theorem givesWay_iff : givesWay set k item = true ↔
    (∃ i other, i < k ∧ set[i]? = some other ∧ item.rivals other ∧ item.rule.rank other.rule ≠ some .gt) ∨
      ∃ other ∈ set.toList, item.rivals other ∧ item.rule.rank other.rule = some .lt := by
  rw [givesWay, Bool.or_eq_true, Array.any_iff_exists, Array.any_eq_true']
  simp only [Bool.and_eq_true, decide_eq_true_eq, Array.mem_toList_iff]
  refine or_congr_left ⟨?_, ?_⟩
  · rintro ⟨i, hi, -, hlt, hrivals⟩
    exact ⟨i, set[i], hlt, Array.getElem?_eq_getElem hi, hrivals⟩
  · rintro ⟨i, other, hlt, hother, hrivals⟩
    obtain ⟨hi, rfl⟩ := Array.getElem?_eq_some_iff.mp hother
    exact ⟨i, hi, Nat.zero_le _, hlt, hrivals⟩

/-- What gives way goes on to do so while the set grows. -/
theorem givesWay_mono {more : List Item} (hmore : set'.toList = set.toList ++ more)
    (h : givesWay set k item = true) : givesWay set' k item = true := by
  rw [givesWay_iff] at h ⊢
  rcases h with ⟨i, other, hlt, hother, hrivals⟩ | ⟨other, hother, hrivals⟩
  · refine .inl ⟨i, other, hlt, ?_, hrivals⟩
    rw [← Array.getElem?_toList] at hother ⊢
    obtain ⟨hi, -⟩ := List.getElem?_eq_some_iff.mp hother
    rw [hmore, List.getElem?_append_left hi, hother]
  · exact .inr ⟨other, by rw [hmore]; exact List.mem_append_left _ hother, hrivals⟩

/-- What the set becomes when one of its items is looked at. -/
def grown (done : Array (Array Item)) (set : Array Item) (k : Nat) (item : Item) : Array Item :=
  match item.next? with
  | some (.terminal _) => set
  | some (.category c) => predict c done.size set
  | none => if givesWay set k item then set else set ++ (copies done item).toArray

/-- One step of the walk. -/
theorem grow_succ (h : set[k]? = some item) : grow done token (steps + 1) k set following =
    grow done token steps (k + 1) (grown done set k item) (following ++ (item.scanned? token).toArray) := by
  rw [grow, h]
  dsimp only
  rw [grown]
  unfold Item.scanned?
  cases hnext : item.next? with
  | some s =>
    cases s with
    | terminal t =>
      cases token with
      | none => simp
      | some tok =>
        dsimp only
        split <;> simp
    | category c => simp
  | none =>
    dsimp only
    split
    · simp
    · rw [copies]
      split <;> simp_all

theorem grow_end (h : set.size ≤ k) : grow done token steps k set following = (set, following) := by
  cases steps with
  | zero => rfl
  | succ steps => rw [grow, Array.getElem?_eq_none h]

/-- The item itself, if it is one that is kept. -/
def keeps (set : Array Item) (k : Nat) (item : Item) : List Item :=
  if item.isFinished && !givesWay set k item then [item] else []

theorem mem_keeps_iff {other : Item} :
    other ∈ keeps set k item ↔ other = item ∧ item.isFinished ∧ givesWay set k item = false := by
  rw [keeps]
  split <;> simp_all

/-- What one step adds to a set: rules that begin, or copies over a phrase that is kept. -/
structure Step (done : Array (Array Item)) (set : Array Item) (k : Nat) (item : Item) (rules : List Rule) : Prop where
  toList_eq : (grown done set k item).toList =
    set.toList ++ (rules.map (Item.fresh · done.size) ++ (keeps set k item).flatMap (copies done))
  rules_nodup : rules.Nodup
  rules_new : ∀ rule ∈ rules, ∀ i ∈ set.toList, i.isFresh → i.rule ≠ rule
  rules_expected : ∀ rule ∈ rules, ∃ c, item.next? = some (.category c) ∧ rule ∈ c.rules
  predicted : ∀ c, item.next? = some (.category c) → ∀ rule ∈ c.rules,
    ∃ i ∈ (grown done set k item).toList, i.rule = rule ∧ i.isFresh

theorem exists_step (done : Array (Array Item)) (set : Array Item) (k : Nat) (item : Item) :
    ∃ rules, Step done set k item rules := by
  cases hnext : item.next? with
  | some s =>
    have hkeeps : keeps set k item = [] := by simp [keeps, Item.isFinished, hnext]
    cases s with
    | terminal t =>
      refine ⟨[], ?_, .nil, by simp, by simp, fun c hc => ?_⟩
      · simp [grown, hnext, hkeeps]
      · cases hnext.symm.trans hc
    | category c =>
      obtain ⟨added, heq, hnodup, hadded, hthere⟩ := exists_predicted c.rules done.size set
      have hgrown : (grown done set k item).toList = set.toList ++ added.map (Item.fresh · done.size) := by
        rw [grown, hnext]
        exact heq
      refine ⟨added, by simpa [hkeeps] using hgrown, hnodup, fun rule hrule => (hadded rule hrule).2,
        fun rule hrule => ⟨c, hnext, (hadded rule hrule).1⟩, ?_⟩
      intro c' hc' rule hrule
      cases hnext.symm.trans hc'
      rw [hgrown]
      exact hthere rule hrule
  | none =>
    refine ⟨[], ?_, .nil, by simp, by simp, fun c hc => (by cases hnext.symm.trans hc)⟩
    cases hway : givesWay set k item <;> simp [grown, keeps, Item.isFinished, hnext, hway]

/-- The items of the sets that are done hold where they are. -/
def SoundSets (tokens : List Token) (goal : Category) (done : Array (Array Item)) : Prop :=
  ∀ here (parents : Array Item), done[here]? = some parents → ∀ parent ∈ parents, parent.Sound tokens goal here

namespace Step

variable {tokens : List Token} {goal : Category} {rules : List Rule}

/-- Items that were there stay where they are. -/
theorem getElem?_eq (h : Step done set k item rules) {i : Nat} (hi : i < set.size) :
    (grown done set k item)[i]? = set[i]? := by
  rw [← Array.getElem?_toList, h.toList_eq, List.getElem?_append_left (by rwa [Array.length_toList]),
    Array.getElem?_toList]

theorem subset (h : Step done set k item rules) : set.toList ⊆ (grown done set k item).toList := by
  rw [h.toList_eq]
  exact List.subset_append_left _ _

/-- The rules that begin are those of the grammar. -/
theorem rules_mem (h : Step done set k item rules) : ∀ rule ∈ rules, rule ∈ rule.left.rules := by
  intro rule hrule
  obtain ⟨c, -, hmem⟩ := h.rules_expected rule hrule
  rwa [Category.left_of_mem hmem]

theorem sound (h : Step done set k item rules) (hdone : SoundSets tokens goal done)
    (hset : ∀ i ∈ set.toList, i.Sound tokens goal done.size) (hitem : item ∈ set.toList) :
    ∀ i ∈ (grown done set k item).toList, i.Sound tokens goal done.size := by
  intro i hi
  rw [h.toList_eq, List.mem_append, List.mem_append, List.mem_map, List.mem_flatMap] at hi
  rcases hi with hi | ⟨rule, hrule, rfl⟩ | ⟨other, hother, hi⟩
  · exact hset i hi
  · obtain ⟨c, hnext, hmem⟩ := h.rules_expected rule hrule
    exact (hset item hitem).fresh hnext hmem
  · obtain ⟨rfl, hfinished, -⟩ := mem_keeps_iff.mp hother
    obtain ⟨node, parents, parent, hnode, hparents, hparent, hnext, rfl⟩ := mem_copies_iff.mp hi
    exact (hset other hitem).complete hfinished hnode (hdone _ parents hparents parent hparent) hnext

end Step

/-! ### The whole walk -/

/-- Items, latest first, of which each that made the same phrase as one before is ranked above it. -/
def Apart (kept : List Item) : Prop :=
  kept.Pairwise fun later earlier =>
    later.rule.left = earlier.rule.left → later.origin = earlier.origin → later.rule.rank earlier.rule = some .gt

/-- A set that has been walked up to an index. It has what it started with, the rules that began in it and the
copies over the phrases that were kept. -/
structure Walk (tokens : List Token) (goal : Category) (done : Array (Array Item)) (start : Array Item) (k : Nat)
    (set following : Array Item) (rules : List Rule) (kept : List Item) : Prop where
  le_size : k ≤ set.size
  start_prefix : start.toList <+: set.toList
  perm : set.toList.Perm (start.toList ++ rules.map (Item.fresh · done.size) ++ kept.flatMap (copies done))
  following_eq : following.toList = (set.toList.take k).filterMap (Item.scanned? tokens[done.size]?)
  sound : ∀ item ∈ set.toList, item.Sound tokens goal done.size
  rules_nodup : rules.Nodup
  rules_mem : ∀ rule ∈ rules, rule ∈ rule.left.rules
  predicted : ∀ i < k, ∀ item c, set[i]? = some item → item.next? = some (.category c) → ∀ rule ∈ c.rules,
    Item.fresh rule done.size ∈ set.toList
  kept_walked : ∀ item ∈ kept, item.isFinished ∧ ∃ i < k, set[i]? = some item
  kept_of : ∀ i < k, ∀ item, set[i]? = some item → item.isFinished → givesWay set i item = false → item ∈ kept
  kept_apart : Apart kept

/-- The items of the sets that are done, with the places of these. -/
def placed (done : Array (Array Item)) : List (Nat × Item) :=
  done.toList.zipIdx.flatMap fun (set, x) => set.toList.map fun item => (x, item)

/-- An item in some set waits for what another item has made. -/
def waits (waiting : Nat × Item) (item : Item) : Bool :=
  waiting.1 = item.origin && waiting.2.next? = some (.category item.rule.left)

theorem waits_iff {waiting : Nat × Item} :
    waits waiting item = true ↔ waiting.1 = item.origin ∧ waiting.2.next? = some (.category item.rule.left) := by
  simp [waits]

theorem length_placed (done : Array (Array Item)) : (placed done).length = (done.toList.map Array.size).sum := by
  have hsizes : (done.toList.zipIdx.map fun a => a.1.size) = done.toList.map Array.size :=
    calc
      _ = (done.toList.zipIdx.map Prod.fst).map Array.size := List.map_map.symm
      _ = done.toList.map Array.size := by rw [List.zipIdx_map_fst]
  rw [placed, List.length_flatMap]
  simp only [List.length_map, Array.length_toList, hsizes]

/-- Each copy is one of an item that waits. -/
theorem length_copies_le (done : Array (Array Item)) (item : Item) :
    (copies done item).length ≤ (placed done).countP (waits · item) := by
  unfold copies
  split
  · next node parents hnode hparents =>
    have hmem : (parents, item.origin) ∈ done.toList.zipIdx :=
      List.mem_zipIdx_iff_getElem?.mpr (Array.getElem?_toList.trans hparents)
    have hsub : (parents.toList.map fun parent => (item.origin, parent)).Sublist (placed done) := by
      rw [placed, List.flatMap_def]
      exact List.sublist_flatten_of_mem (List.mem_map_of_mem hmem)
    calc
      _ = parents.toList.countP fun parent => parent.next? = some (.category item.rule.left) := by
        simp [advanced, List.countP_eq_length_filter]
      _ = (parents.toList.map fun parent => (item.origin, parent)).countP (waits · item) := by
        rw [List.countP_map]
        exact List.countP_congr fun parent _ => by simp [waits]
      _ ≤ (placed done).countP (waits · item) := hsub.countP_le
  · exact Nat.zero_le _

theorem countP_eq_sum {α : Type} (xs : List α) (p : α → Bool) :
    xs.countP p = (xs.map fun a => if p a then 1 else 0).sum := by
  induction xs with
  | nil => rfl
  | cons a xs ih => rw [List.countP_cons, List.map_cons, List.sum_cons, ih, Nat.add_comm]

theorem sum_countP_comm {α β : Type} (xs : List α) (ys : List β) (r : β → α → Bool) :
    (xs.map fun a => ys.countP (r · a)).sum = (ys.map fun b => xs.countP (r b)).sum := by
  induction xs with
  | nil => simp
  | cons a xs ih =>
    simp only [List.map_cons, List.sum_cons, List.countP_cons, List.sum_map_add, ih]
    rw [countP_eq_sum ys, Nat.add_comm]

namespace Walk

variable {tokens : List Token} {goal : Category} {start : Array Item} {rules : List Rule} {kept : List Item}

theorem begin (hstart : ∀ item ∈ start.toList, item.Sound tokens goal done.size) :
    Walk tokens goal done start 0 start #[] [] [] where
  le_size := Nat.zero_le _
  start_prefix := List.prefix_refl _
  perm := by simp
  following_eq := by simp
  sound := hstart
  rules_nodup := .nil
  rules_mem := by simp
  predicted := by simp
  kept_walked := by simp
  kept_of := by simp
  kept_apart := .nil

theorem perm_regroup {α : Type} (a b c d e : List α) : (a ++ b ++ c ++ (d ++ e)).Perm (a ++ (b ++ d) ++ (e ++ c)) :=
  calc
    _ = a ++ b ++ (c ++ (d ++ e)) := List.append_assoc _ _ _
    (a ++ b ++ (c ++ (d ++ e))).Perm (a ++ b ++ (d ++ e ++ c)) := List.perm_append_comm.append_left _
    _ = _ := by simp only [List.append_assoc]

/-- An item that is kept does not give way to those that were kept before. -/
theorem apart_keeps (w : Walk tokens goal done start k set following rules kept) (item : Item) :
    Apart (keeps set k item ++ kept) := by
  refine List.pairwise_append.mpr ⟨?_, w.kept_apart, fun later hlater earlier hearlier hleft horigin => ?_⟩
  · rw [keeps]
    split
    · exact List.pairwise_singleton _ _
    · exact .nil
  · obtain ⟨rfl, -, hway⟩ := mem_keeps_iff.mp hlater
    obtain ⟨hfinished, i, hi, hwalked⟩ := w.kept_walked earlier hearlier
    by_contra hrank
    have hrivals : later.rivals earlier := by simp [Item.rivals, hfinished, hleft, horigin]
    rw [givesWay_iff.mpr (.inl ⟨i, earlier, hi, hwalked, hrivals, hrank⟩)] at hway
    cases hway

/-- **What a step keeps.** -/
theorem step (hdone : SoundSets tokens goal done) (w : Walk tokens goal done start k set following rules kept)
    (hitem : set[k]? = some item) : ∃ rules', Walk tokens goal done start (k + 1) (grown done set k item)
      (following ++ (item.scanned? tokens[done.size]?).toArray) rules' (keeps set k item ++ kept) := by
  obtain ⟨added, hstep⟩ := exists_step done set k item
  have hmem : item ∈ set.toList := Array.mem_toList_iff.mpr (Array.mem_of_getElem? hitem)
  have hlt : k < set.size := (Array.getElem?_eq_some_iff.mp hitem).1
  have hsize : set.toList.length = set.size := Array.length_toList
  have hgrown := hstep.toList_eq
  have hsame (i : Nat) (hi : i ≤ k) : (grown done set k item)[i]? = set[i]? :=
    hstep.getElem?_eq (Nat.lt_of_le_of_lt hi hlt)
  have hsound := hstep.sound hdone w.sound hmem
  refine ⟨rules ++ added, ?_⟩
  constructor
  case le_size =>
    rw [← Array.length_toList, hgrown, List.length_append]
    omega
  case start_prefix =>
    rw [hgrown]
    exact w.start_prefix.trans (List.prefix_append _ _)
  case perm =>
    rw [hgrown, List.map_append, List.flatMap_append]
    exact (w.perm.append_right _).trans (perm_regroup _ _ _ _ _)
  case following_eq =>
    have hlast : set.toList[k]? = some item := Array.getElem?_toList.trans hitem
    rw [Array.toList_append, w.following_eq, hgrown, List.take_append_of_le_length (by omega), List.take_add_one,
      hlast, List.filterMap_append]
    cases hscanned : item.scanned? tokens[done.size]? <;> simp [hscanned]
  case sound => exact hsound
  case rules_nodup =>
    refine List.nodup_append.mpr ⟨w.rules_nodup, hstep.rules_nodup, fun rule hrule other hother heq => ?_⟩
    have hfresh : Item.fresh rule done.size ∈ set.toList := by
      refine w.perm.mem_iff.mpr (List.mem_append_left _ (List.mem_append_right _ ?_))
      exact List.mem_map_of_mem hrule
    exact hstep.rules_new other hother _ hfresh rfl heq
  case rules_mem =>
    intro rule hrule
    rcases List.mem_append.mp hrule with hrule | hrule
    · exact w.rules_mem rule hrule
    · exact hstep.rules_mem rule hrule
  case predicted =>
    intro i hi item' c hitem' hnext rule hrule
    rw [hsame i (by omega)] at hitem'
    rcases Nat.lt_or_ge i k with hbefore | hhere
    · exact hstep.subset (w.predicted i hbefore item' c hitem' hnext rule hrule)
    · obtain rfl : i = k := by omega
      cases hitem.symm.trans hitem'
      obtain ⟨other, hother, rfl, hfresh⟩ := hstep.predicted c hnext rule hrule
      rw [← (hsound other hother).holds.eq_fresh (List.isEmpty_iff.mp hfresh)]
      exact hother
  case kept_walked =>
    intro other hother
    rcases List.mem_append.mp hother with hother | hother
    · obtain ⟨rfl, hfinished, -⟩ := mem_keeps_iff.mp hother
      exact ⟨hfinished, k, Nat.lt_succ_self k, (hsame k (Nat.le_refl k)).trans hitem⟩
    · obtain ⟨hfinished, i, hi, hwalked⟩ := w.kept_walked other hother
      exact ⟨hfinished, i, Nat.lt_succ_of_lt hi, (hsame i (Nat.le_of_lt hi)).trans hwalked⟩
  case kept_of =>
    intro i hi other hother hfinished hway
    rw [hsame i (by omega)] at hother
    have hway' : givesWay set i other = false := by
      by_contra hgives
      rw [givesWay_mono hgrown (by simpa using hgives)] at hway
      cases hway
    rcases Nat.lt_or_ge i k with hbefore | hhere
    · exact List.mem_append_right _ (w.kept_of i hbefore other hother hfinished hway')
    · obtain rfl : i = k := by omega
      cases hitem.symm.trans hother
      exact List.mem_append_left _ (mem_keeps_iff.mpr ⟨rfl, hfinished, hway'⟩)
  case kept_apart => exact w.apart_keeps item

/-! ### Room for all that is added -/

/-- Every rule begins once. -/
theorem length_rules_le (w : Walk tokens goal done start k set following rules kept) : rules.length ≤ 36 :=
  (w.rules_nodup.subperm fun rule hrule => Rule.mem_all (w.rules_mem rule hrule)).length_le

/-- No more than three phrases of one category and one origin are kept. -/
theorem countP_waits_le (w : Walk tokens goal done start k set following rules kept) (waiting : Nat × Item) :
    kept.countP (waits waiting) ≤ 3 := by
  rw [List.countP_eq_length_filter, ← List.length_map (f := fun item => item.rule.level)]
  have hdescending : ((kept.filter (waits waiting)).map fun item => item.rule.level).Pairwise (· > ·) := by
    refine List.pairwise_map.mpr ((w.kept_apart.filter _).imp_of_mem ?_)
    intro later earlier hlater hearlier hapart
    obtain ⟨horigin, hleft⟩ := waits_iff.mp (List.mem_filter.mp hlater).2
    obtain ⟨horigin', hleft'⟩ := waits_iff.mp (List.mem_filter.mp hearlier).2
    have hsame := Symbol.category.inj (Option.some.inj (hleft.symm.trans hleft'))
    exact Rule.level_lt_of_rank (hapart hsame (horigin.symm.trans horigin'))
  have hbelow : (kept.filter (waits waiting)).map (fun item => item.rule.level) ⊆ List.range 3 := by
    intro level hlevel
    obtain ⟨item, -, rfl⟩ := List.mem_map.mp hlevel
    exact List.mem_range.mpr item.rule.level_lt
  have hnodup := hdescending.imp Nat.ne_of_gt
  exact (List.subperm_of_subset hnodup hbelow).length_le

/-- **The set has room.** -/
theorem size_le (w : Walk tokens goal done start k set following rules kept) :
    set.size ≤ room (done.toList.map Array.size).sum start := by
  have hcopies : (kept.flatMap (copies done)).length ≤ 3 * (placed done).length :=
    calc
      _ = (kept.map fun item => (copies done item).length).sum := List.length_flatMap
      _ ≤ (kept.map fun item => (placed done).countP (waits · item)).sum :=
        List.sum_le_sum fun item _ => length_copies_le done item
      _ = ((placed done).map fun waiting => kept.countP (waits waiting)).sum := sum_countP_comm _ _ _
      _ ≤ 3 * (placed done).length := by
        have hthree := List.sum_le_card_nsmul ((placed done).map fun waiting => kept.countP (waits waiting)) 3
          fun count hcount => by
            obtain ⟨waiting, -, rfl⟩ := List.mem_map.mp hcount
            exact w.countP_waits_le waiting
        rwa [List.length_map, nsmul_eq_mul, Nat.cast_id, Nat.mul_comm] at hthree
  have hlength := w.perm.length_eq
  have hrules := w.length_rules_le
  rw [length_placed] at hcopies
  simp only [List.length_append, List.length_map, Array.length_toList] at hlength
  rw [room]
  omega

/-- **The walk comes to its end,** and what each step keeps holds there. -/
theorem grow_walk {P : Nat → Array Item → List Item → Prop} (hdone : SoundSets tokens goal done)
    (hP : ∀ {k set following rules kept item}, Walk tokens goal done start k set following rules kept →
      set[k]? = some item → P k set kept → P (k + 1) (grown done set k item) (keeps set k item ++ kept))
    (w : Walk tokens goal done start k set following rules kept) (hp : P k set kept)
    (hsteps : room (done.toList.map Array.size).sum start ≤ steps + k) :
    ∃ set' following' rules' kept', grow done tokens[done.size]? steps k set following = (set', following') ∧
      Walk tokens goal done start set'.size set' following' rules' kept' ∧ P set'.size set' kept' := by
  induction steps generalizing k set following rules kept with
  | zero =>
    have hend : k = set.size := Nat.le_antisymm w.le_size (by have := w.size_le; omega)
    subst hend
    exact ⟨set, following, rules, kept, rfl, w, hp⟩
  | succ steps ih =>
    rcases Nat.lt_or_ge k set.size with hlt | hge
    · have hitem := Array.getElem?_eq_getElem hlt
      obtain ⟨rules', w'⟩ := w.step hdone hitem
      rw [grow_succ hitem]
      exact ih w' (hP w hitem hp) (by omega)
    · obtain rfl : k = set.size := Nat.le_antisymm w.le_size hge
      rw [grow_end (Nat.le_refl _)]
      exact ⟨set, following, rules, kept, rfl, w, hp⟩

end Walk

end Chart

end DragonflyFabric.Language
