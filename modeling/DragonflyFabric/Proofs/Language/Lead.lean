import DragonflyFabric.Proofs.Language.Grouping

/-!
# The expression that leads a set

Of the expressions that end at a place, the one that is walked over first leads its set, `Chart.Led`. It is no
equality, and it begins last of all of them. Its copies join the set at once, and among them is an equality for each
of the others, `Chart.Charted.exists_copy`. So whatever else ends here gives way, unless it is one of these copies:
`Chart.Led.givesWay`. Names would break the order, so that there are to be none.

That a member access leads its set only if it has no equality for its base, `Chart.Foremost`, is handed on from set to
set while its parts are found.
-/

namespace DragonflyFabric.Language

namespace Rule

variable {rule other : Rule}

theorem of_rank_gt (h : rule.rank other = some .gt) : rule = exprEqual ∨ rule = exprNamed := by
  unfold rank at h
  split at h <;> simp_all

theorem of_rank_lt (h : rule.rank other = some .lt) : other = exprEqual ∨ other = exprNamed := by
  unfold rank at h
  split at h <;> simp_all

end Rule

namespace Item

variable {tokens : List Token} {goal : Category} {item : Item} {here n : Nat} {node : Node}

/-- A finished expression. -/
def Phrase (item : Item) : Prop := item.isFinished ∧ item.rule.left = .expression

/-- What was found last is an expression. -/
def Over (item : Item) : Prop :=
  ∃ node found, item.found = node :: found ∧ item.rule.right[found.length]? = some (.category .expression)

theorem over_advance_iff : (item.advance node).Over ↔ item.next? = some (.category .expression) := by
  constructor
  · rintro ⟨node', found, heq, hright⟩
    cases heq
    exact hright
  · exact fun h => ⟨node, item.found, rfl, h⟩

theorem not_over_fresh (rule : Rule) (here : Nat) : ¬ (fresh rule here).Over := by
  rintro ⟨node, found, h, -⟩
  cases h

/-- A member access of which so many parts have been found. -/
def isMember (n : Nat) (item : Item) : Bool := item.rule = .exprMember && item.found.length = n

theorem isMember_iff : item.isMember n = true ↔ item.rule = .exprMember ∧ item.found.length = n := by
  simp [isMember]

theorem phrase_of_isMember (h : item.isMember 3 = true) : item.Phrase := by
  obtain ⟨hrule, hlength⟩ := isMember_iff.mp h
  exact ⟨isFinished_iff.mpr (by rw [hrule, hlength]; decide), by rw [hrule]; rfl⟩

namespace Holds

variable (h : item.Holds tokens here)

include h

theorem isMember_of_isFinished (hrule : item.rule = .exprMember) (hfinished : item.isFinished) :
    item.isMember 3 = true :=
  isMember_iff.mpr ⟨hrule, by rw [h.found_eq hfinished, hrule]; rfl⟩

/-- Names need a token of their own. -/
theorem rule_ne_named (hat : ∀ token ∈ tokens, token.terminal ≠ .at) (hfound : item.found ≠ []) :
    item.rule ≠ .exprNamed := by
  intro hrule
  obtain ⟨token, htoken, hterminal⟩ := h.first_terminal hfound (by rw [hrule]; rfl)
  exact hat token (List.mem_of_getElem? htoken) hterminal

theorem over_of_equal (hrule : item.rule = .exprEqual) (hfinished : item.isFinished) : item.Over := by
  have hlength := h.found_eq hfinished
  obtain ⟨rule, origin, found⟩ := item
  obtain rfl : rule = .exprEqual := hrule
  obtain ⟨right, mark, left, rfl⟩ := List.length_eq_three.mp hlength
  exact ⟨right, [mark, left], rfl, rfl⟩

/-- A finished expression that ends in another one is an equality. -/
theorem rule_eq_of_over (hat : ∀ token ∈ tokens, token.terminal ≠ .at) (hphrase : item.Phrase) (hover : item.Over) :
    item.rule = .exprEqual := by
  have hlength := h.found_eq hphrase.1
  have hnamed := h.rule_ne_named hat (h.found_ne_nil hphrase.1)
  obtain ⟨node, found, hfound, hright⟩ := hover
  have hleft := hphrase.2
  rw [hfound, List.length_cons] at hlength
  cases hrule : item.rule <;> rw [hrule] at hlength hright hleft hnamed <;> simp_all [Rule.right, Rule.left]

end Holds

end Item

namespace Saturated

variable {tokens : List Token} {goal : Category} {stop m : Nat} {sets : Nat → List Item} {rule : Rule}

/-- Every rule that begins is in the chart. -/
theorem begins (hs : Saturated tokens goal stop sets) (h : Item.Begins tokens goal rule m) (hlt : m < stop) :
    .fresh rule m ∈ sets m := by
  induction h with
  | whole => exact hs.start
  | @expected item here c rule _ hholds hnext hmem ih =>
    have hle := hholds.origin_le
    obtain ⟨found, hlength, hitem⟩ := hs.reaches hholds hlt (ih (by omega))
    refine hs.predicted here hlt _ hitem c ?_ rule hmem
    rw [Item.next?_eq_some_iff, hlength]
    exact hnext

end Saturated

namespace Chart

open Item (isMember_iff)

variable {tokens : List Token} {goal : Category} {done : Array (Array Item)} {start set following : Array Item}
  {rules : List Rule} {kept : List Item} {item lead : Item} {k n : Nat}

/-! ### Which member access comes first -/

/-- The first member access of so many parts has no equality for its base, and none begins later. -/
def Foremost (n : Nat) (items : List Item) : Prop :=
  ∀ first, items.find? (Item.isMember n) = some first →
    (∀ base ∈ first.found.getLast?, base.isEqual = false) ∧
      ∀ other ∈ items, other.isMember n → other.origin ≤ first.origin

/-- A set that is still to be walked, in a chart that is in order so far. -/
structure Ordered (done : Array (Array Item)) (start : Array Item) : Prop where
  grouped : ∀ here, ∀ item ∈ setAt (done.push start) here, ∀ part ∈ item.found, part.Grouped
  not_over : ∀ item ∈ start.toList, ¬ item.Over
  second : Foremost 2 start.toList
  third : Foremost 3 start.toList

namespace Walk

/-- What joins a set has found nothing, or was advanced over a phrase that was kept. -/
theorem exists_more (w : Walk tokens goal done start k set following rules kept) :
    ∃ more, set.toList = start.toList ++ more ∧ ∀ item ∈ more,
      (∃ rule, item = .fresh rule done.size) ∨ ∃ phrase ∈ kept, item ∈ copies done phrase := by
  obtain ⟨more, hmore⟩ := w.start_prefix
  refine ⟨more, hmore.symm, fun item hitem => ?_⟩
  have hperm := w.perm
  rw [← hmore, List.append_assoc, List.perm_append_left_iff] at hperm
  rcases List.mem_append.mp (hperm.mem_iff.mp hitem) with hitem | hitem
  · obtain ⟨rule, -, rfl⟩ := List.mem_map.mp hitem
    exact .inl ⟨rule, rfl⟩
  · exact .inr (List.mem_flatMap.mp hitem)

theorem mem_of_getElem? (h : set[k]? = some item) : item ∈ set.toList :=
  Array.mem_toList_iff.mpr (Array.mem_of_getElem? h)

end Walk

/-- A copy has found what its phrase stands for last. -/
theorem over_of_mem_copies (h : item ∈ copies done lead) : item.Over ↔ lead.rule.left = .expression := by
  obtain ⟨node, parents, parent, -, -, -, hnext, rfl⟩ := mem_copies_iff.mp h
  rw [Item.over_advance_iff, hnext, Option.some_inj, Symbol.category.injEq]

/-- A member access that has found more than its base was advanced over a token. -/
theorem not_isMember_copies (h : item ∈ copies done lead) (hn : 2 ≤ n) : item.isMember n = false := by
  obtain ⟨node, parents, parent, -, -, -, hnext, rfl⟩ := mem_copies_iff.mp h
  by_contra hmember
  obtain ⟨hrule, hlength⟩ := isMember_iff.mp (by simpa using hmember)
  rw [Item.next?_eq_some_iff, show parent.rule = .exprMember from hrule] at hnext
  rcases hfound : parent.found.length with _ | _ | _ | count
  · rw [Item.advance_found, List.length_cons] at hlength
    omega
  all_goals
    rw [hfound] at hnext
    cases hnext

theorem Walk.find?_isMember (w : Walk tokens goal done start k set following rules kept) (hn : 2 ≤ n) :
    set.toList.find? (Item.isMember n) = start.toList.find? (Item.isMember n) ∧
      ∀ item ∈ set.toList, item.isMember n → item ∈ start.toList := by
  obtain ⟨more, hmore, hnew⟩ := w.exists_more
  have hnone : ∀ item ∈ more, item.isMember n = false := by
    intro item hitem
    rcases hnew item hitem with ⟨rule, rfl⟩ | ⟨phrase, -, hcopy⟩
    · by_contra hmember
      have hmember : (Item.fresh rule done.size).isMember n = true := by simpa using hmember
      have hlength : 0 = n := (isMember_iff.mp hmember).2
      omega
    · exact not_isMember_copies hcopy hn
  have hlast : more.find? (Item.isMember n) = none := List.find?_eq_none.mpr (by simpa using hnone)
  rw [hmore]
  constructor
  · rw [List.find?_append, hlast, Option.or_none]
  · intro item hitem hmember
    rcases List.mem_append.mp hitem with hitem | hitem
    · exact hitem
    · rw [hnone item hitem] at hmember
      cases hmember

/-- Of the member accesses that are walked over, the first is the first of those that are finished. -/
theorem find?_of_walked {p : Item → Bool} (hitem : set[k]? = some item) (hp : p item = true)
    (hbefore : ∀ i < k, ∀ other, set[i]? = some other → p other = false) : set.toList.find? p = some item := by
  rw [← Array.getElem?_toList] at hitem
  obtain ⟨hk, heq⟩ := List.getElem?_eq_some_iff.mp hitem
  refine List.find?_eq_some_iff_getElem.mpr ⟨hp, k, hk, heq, fun i hi => ?_⟩
  have := hbefore i hi _ (Array.getElem?_toList.symm.trans (List.getElem?_eq_getElem (Nat.lt_trans hi hk)))
  simpa using this

/-! ### What leads a set -/

/-- No expression has been walked over, and none has been put into an item. -/
structure Unled (k : Nat) (set : Array Item) : Prop where
  not_phrase : ∀ i < k, ∀ item, set[i]? = some item → ¬ item.Phrase
  not_over : ∀ item ∈ set.toList, ¬ item.Over

/-- An expression has been walked over before all others. Its copies stand in front of what has any other expression
in it, and besides it only such copies are kept. -/
structure Led (done : Array (Array Item)) (start : Array Item) (k : Nat) (set : Array Item) (kept : List Item)
    (lead : Item) : Prop where
  walked : ∃ i < k, set[i]? = some lead
  phrase : lead.Phrase
  not_over : ¬ lead.Over
  copies_first : ∃ before after, set.toList = before ++ (copies done lead ++ after) ∧ ∀ item ∈ before, ¬ item.Over
  kept_eq : ∀ item ∈ kept, item.rule.left = .expression → item = lead ∨ item ∈ copies done lead
  find?_eq : lead.rule = .exprMember → start.toList.find? (Item.isMember 3) = some lead

/-! ### What gives way to it -/

section

variable (hc : Charted tokens goal done start) (hproper : ∀ token ∈ tokens, token.Proper)
  (hat : ∀ token ∈ tokens, token.terminal ≠ .at)

include hc

theorem Charted.origin_le_of_mem_copies (h : item ∈ copies done lead) : item.origin ≤ lead.origin := by
  obtain ⟨node, parents, parent, -, hparents, hparent, -, rfl⟩ := mem_copies_iff.mp h
  exact (hc.soundSets _ _ hparents parent hparent).holds.origin_le

theorem Charted.origin_lt_of_mem_copies (h : item ∈ copies done lead) (hrule : item.rule = .exprEqual)
    (hfinished : item.isFinished) : item.origin < lead.origin := by
  obtain ⟨node, parents, parent, -, hparents, hparent, -, rfl⟩ := mem_copies_iff.mp h
  have hlength := Item.isFinished_iff.mp hfinished
  rw [hrule, Item.advance_found, List.length_cons] at hlength
  refine (hc.soundSets _ _ hparents parent hparent).holds.origin_lt (List.ne_nil_of_length_pos ?_)
  exact Nat.lt_of_lt_of_le (by decide) (Nat.le_of_succ_le_succ hlength)

include hproper hat

/-- **Whatever began before the lead is met by an equality over it.** -/
theorem Charted.exists_copy (hlead : lead.Sound tokens goal done.size) (hphrase : lead.Phrase)
    (hitem : item.Sound tokens goal done.size) (hitemPhrase : item.Phrase) (hlt : item.origin < lead.origin) :
    ∃ copy ∈ copies done lead, copy.rule = .exprEqual ∧ copy.origin = item.origin ∧ copy.isFinished := by
  have hopens := hlead.begins.opening hphrase.2
  have hhere := hlead.holds.origin_lt (hlead.holds.found_ne_nil hphrase.1)
  have hdepth : depth tokens lead.origin = depth tokens item.origin :=
    (hlead.holds.depth_eq_of_isFinished hphrase.1).symm.trans (hitem.holds.depth_eq_of_isFinished hitemPhrase.1)
  have hrank : item.rule.Ranked := by
    by_contra hrank
    have := hitem.holds.depth_lt_of_opening hitemPhrase.1 hitemPhrase.2 hrank hlt hhere hopens
    omega
  obtain ⟨mark, left, hsplit⟩ := hitem.holds.exists_split hproper hat hrank hlt (Nat.le_of_lt hhere) hopens hdepth
  have hbegins : Item.Begins tokens goal .exprEqual item.origin :=
    hitem.begins.expression hitemPhrase.2 List.mem_cons_self
  obtain ⟨found, hlength, hmem⟩ :=
    hc.saturated.reaches hsplit hhere (hc.saturated.begins hbegins (Nat.lt_trans hlt hhere))
  rw [setAt_push_of_lt _ hhere, setAt, Array.getElem?_eq_getElem hhere] at hmem
  obtain ⟨node, hnode⟩ := hlead.holds.exists_node hproper hphrase.1
  have hnext : Item.next? ⟨.exprEqual, item.origin, found⟩ = some (.category lead.rule.left) := by
    rw [Item.next?_eq_some_iff, hlength, hphrase.2]
    rfl
  refine ⟨_, mem_copies_iff.mpr ⟨node, _, _, hnode, Array.getElem?_eq_getElem hhere, Array.mem_toList_iff.mp hmem,
    hnext, rfl⟩, rfl, rfl, Item.isFinished_iff.mpr ?_⟩
  rw [Item.advance_found, List.length_cons, hlength]
  exact Nat.le_refl _

end

namespace Led

variable (hl : Led done start k set kept lead) (hc : Charted tokens goal done start) (ho : Ordered done start)
  (w : Walk tokens goal done start k set following rules kept)

include hl

theorem lead_mem : lead ∈ set.toList := by
  obtain ⟨i, -, hi⟩ := hl.walked
  exact Walk.mem_of_getElem? hi

include hc

theorem origin_le_of_kept (hitem : item ∈ kept) (hleft : item.rule.left = .expression) :
    item.origin ≤ lead.origin := by
  rcases hl.kept_eq item hitem hleft with rfl | hcopy
  · exact Nat.le_refl _
  · exact hc.origin_le_of_mem_copies hcopy

include ho w

/-- Equalities are copies, and begin before what they were advanced over. -/
theorem origin_lt_of_equal (hitem : item ∈ set.toList) (hrule : item.rule = .exprEqual) (hfinished : item.isFinished) :
    item.origin < lead.origin := by
  have hover := (w.sound item hitem).holds.over_of_equal hrule hfinished
  obtain ⟨more, hmore, hnew⟩ := w.exists_more
  rw [hmore, List.mem_append] at hitem
  rcases hitem with hitem | hitem
  · exact absurd hover (ho.not_over item hitem)
  · rcases hnew item hitem with ⟨rule, rfl⟩ | ⟨phrase, hkept, hcopy⟩
    · exact absurd hover (Item.not_over_fresh rule _)
    · have hleft := (over_of_mem_copies hcopy).mp hover
      exact Nat.lt_of_lt_of_le (hc.origin_lt_of_mem_copies hcopy hrule hfinished) (hl.origin_le_of_kept hc hkept hleft)

variable (hat : ∀ token ∈ tokens, token.terminal ≠ .at) (hproper : ∀ token ∈ tokens, token.Proper)

include hat

/-- **The lead begins last.** -/
theorem origin_le (hitem : item ∈ set.toList) (hphrase : item.Phrase) : item.origin ≤ lead.origin := by
  have hlead := w.sound lead hl.lead_mem
  have hsound := w.sound item hitem
  by_cases hequal : item.rule = .exprEqual
  · exact Nat.le_of_lt (hl.origin_lt_of_equal hc ho w hitem hequal hphrase.1)
  by_contra hlt
  have hhere := hsound.holds.origin_lt (hsound.holds.found_ne_nil hphrase.1)
  have hopens := hsound.begins.opening hphrase.2
  have hdepth : depth tokens item.origin = depth tokens lead.origin :=
    (hsound.holds.depth_eq_of_isFinished hphrase.1).symm.trans (hlead.holds.depth_eq_of_isFinished hl.phrase.1)
  by_cases hrank : lead.rule.Ranked
  · have hmember : lead.rule = .exprMember := by
      rcases hrank with hrule | hrule | hrule
      · exact absurd (hlead.holds.over_of_equal hrule hl.phrase.1) hl.not_over
      · exact hrule
      · exact absurd hrule (hlead.holds.rule_ne_named hat (hlead.holds.found_ne_nil hl.phrase.1))
    by_cases hitemRank : item.rule.Ranked
    · -- both are member accesses, and the lead is the first of them
      have hrule : item.rule = .exprMember := by
        rcases hitemRank with hrule | hrule | hrule
        · exact absurd hrule hequal
        · exact hrule
        · exact absurd hrule (hsound.holds.rule_ne_named hat (hsound.holds.found_ne_nil hphrase.1))
      have hthree := hsound.holds.isMember_of_isFinished hrule hphrase.1
      have hstart := (w.find?_isMember (Nat.le_succ 2)).2 item hitem hthree
      exact hlt ((ho.third lead (hl.find?_eq hmember)).2 item hstart hthree)
    · -- only a name could be both, and it would stand behind a point
      have hlength := hlead.holds.found_eq hl.phrase.1
      have henclosed := hsound.holds.enclosed_of_not_ranked hphrase.1 hphrase.2 hitemRank
      have hholds := hlead.holds
      obtain ⟨rule, origin, found⟩ := lead
      obtain rfl : rule = .exprMember := hmember
      obtain ⟨name, point, base, rfl⟩ := List.length_eq_three.mp hlength
      obtain ⟨m, token, hm, hpoint, htoken, hident⟩ := hholds.of_terminal rfl rfl
      obtain ⟨m', token', rfl, -, htoken', hdot⟩ := hpoint.of_terminal rfl rfl
      rcases henclosed.single_or with hsingle | ⟨n, last, hn, hlast, hne⟩
      · obtain ⟨n, other, hn, hother, hopens⟩ := hopens.resolve_left (by omega)
        obtain rfl : n = m' := by omega
        cases htoken'.symm.trans hother
        rw [hdot] at hopens
        cases hopens
      · obtain rfl : n = m' + 1 := by omega
        cases htoken.symm.trans hlast
        exact hne hident
  · have := hlead.holds.depth_lt_of_opening hl.phrase.1 hl.phrase.2 hrank (Nat.not_le.mp hlt) hhere hopens
    omega

include hproper

/-- **Expressions that are no copies of the lead give way.** -/
theorem givesWay (hitem : set[k]? = some item) (hphrase : item.Phrase) (hcopy : item ∉ copies done lead) :
    givesWay set k item = true := by
  have hmem := Walk.mem_of_getElem? hitem
  have hsound := w.sound item hmem
  have hnamed := hsound.holds.rule_ne_named hat (hsound.holds.found_ne_nil hphrase.1)
  rcases Nat.eq_or_lt_of_le (hl.origin_le hc ho w hat hmem hphrase) with horigin | horigin
  · obtain ⟨i, hi, hlead⟩ := hl.walked
    refine givesWay_iff.mpr (.inl ⟨i, lead, hi, hlead, ?_, fun hrank => ?_⟩)
    · exact Item.rivals_iff.mpr ⟨hl.phrase.1, hl.phrase.2.trans hphrase.2.symm, horigin.symm⟩
    · rcases Rule.of_rank_gt hrank with hrule | hrule
      · exact absurd horigin (Nat.ne_of_lt (hl.origin_lt_of_equal hc ho w hmem hrule hphrase.1))
      · exact hnamed hrule
  · obtain ⟨copy, hcopyMem, hrule, hsame, hfinished⟩ :=
      hc.exists_copy hproper hat (w.sound lead hl.lead_mem) hl.phrase hsound hphrase horigin
    obtain ⟨before, after, hlist, hbefore⟩ := hl.copies_first
    have hcopySet : copy ∈ set.toList := by simp [hlist, hcopyMem]
    have hrivals : item.rivals copy :=
      Item.rivals_iff.mpr ⟨hfinished, by rw [hrule, hphrase.2]; rfl, hsame⟩
    by_cases hequal : item.rule = .exprEqual
    · -- an equality over another expression stands behind the copies
      have hover := hsound.holds.over_of_equal hequal hphrase.1
      obtain ⟨j, hj, hget⟩ := List.getElem_of_mem hcopyMem
      have hplace : set[before.length + j]? = some copy := by
        rw [← Array.getElem?_toList, hlist, List.getElem?_append_right (by omega), Nat.add_sub_cancel_left,
          List.getElem?_append_left hj, List.getElem?_eq_getElem hj, hget]
      have hbehind : before.length + j < k := by
        by_contra hle
        rw [← Array.getElem?_toList, hlist] at hitem
        rcases Nat.lt_or_ge k before.length with hk | hk
        · rw [List.getElem?_append_left hk] at hitem
          exact hbefore item (List.mem_of_getElem? hitem) hover
        · rw [List.getElem?_append_right hk, List.getElem?_append_left (by omega)] at hitem
          exact hcopy (List.mem_of_getElem? hitem)
      exact givesWay_iff.mpr (.inl ⟨_, copy, hbehind, hplace, hrivals, by rw [hequal, hrule]; decide⟩)
    · have hrank := (w.sound copy hcopySet).holds.ranked_of_rival hsound.holds hfinished
        (Item.rivals_iff.mpr ⟨hphrase.1, by rw [hrule, hphrase.2]; rfl, hsame.symm⟩) (.inl hrule)
      rcases hrank with hrank | hrank | hrank
      · exact absurd hrank hequal
      · exact givesWay_iff.mpr (.inr ⟨copy, hcopySet, hrivals, by rw [hrank, hrule]; rfl⟩)
      · exact absurd hrank hnamed

/-- What leads a set goes on to do so. -/
theorem step (hitem : set[k]? = some item) :
    Led done start (k + 1) (grown done set k item) (keeps set k item ++ kept) lead := by
  obtain ⟨added, hstep⟩ := exists_step done set k item
  constructor
  case walked =>
    obtain ⟨i, hi, hlead⟩ := hl.walked
    exact ⟨i, Nat.lt_succ_of_lt hi, (hstep.getElem?_eq (Array.getElem?_eq_some_iff.mp hlead).1).trans hlead⟩
  case phrase => exact hl.phrase
  case not_over => exact hl.not_over
  case copies_first =>
    obtain ⟨before, after, hlist, hbefore⟩ := hl.copies_first
    refine ⟨before, after ++ (added.map (Item.fresh · done.size) ++ (keeps set k item).flatMap (copies done)), ?_,
      hbefore⟩
    rw [hstep.toList_eq, hlist]
    simp only [List.append_assoc]
  case kept_eq =>
    intro other hother hleft
    rcases List.mem_append.mp hother with hother | hother
    · obtain ⟨rfl, hfinished, hway⟩ := mem_keeps_iff.mp hother
      refine .inr (by_contra fun hcopy => ?_)
      rw [hl.givesWay hc ho w hat hproper hitem ⟨hfinished, hleft⟩ hcopy] at hway
      cases hway
    · exact hl.kept_eq other hother hleft
  case find?_eq => exact hl.find?_eq

end Led

namespace Unled

variable (hu : Unled k set)

include hu

/-- What is no expression adds nothing over one. -/
theorem step_of_not_phrase (hitem : set[k]? = some item) (hphrase : ¬ item.Phrase) :
    Unled (k + 1) (grown done set k item) := by
  obtain ⟨added, hstep⟩ := exists_step done set k item
  have hlt := (Array.getElem?_eq_some_iff.mp hitem).1
  constructor
  · intro i hi other hother
    rw [hstep.getElem?_eq (by omega)] at hother
    rcases Nat.eq_or_lt_of_le (Nat.le_of_lt_succ hi) with rfl | hbefore
    · cases hitem.symm.trans hother
      exact hphrase
    · exact hu.not_phrase i hbefore other hother
  · intro other hother hover
    rw [hstep.toList_eq, List.mem_append, List.mem_append, List.mem_map, List.mem_flatMap] at hother
    rcases hother with hother | ⟨rule, -, rfl⟩ | ⟨phrase, hkept, hcopy⟩
    · exact hu.not_over other hother hover
    · exact Item.not_over_fresh rule _ hover
    · obtain ⟨rfl, hfinished, -⟩ := mem_keeps_iff.mp hkept
      exact hphrase ⟨hfinished, (over_of_mem_copies hcopy).mp hover⟩

variable (w : Walk tokens goal done start k set following rules kept)
  (hat : ∀ token ∈ tokens, token.terminal ≠ .at)

include w hat

/-- **The first expression that is walked over leads the set.** -/
theorem step_of_phrase (hitem : set[k]? = some item) (hphrase : item.Phrase) :
    Led done start (k + 1) (grown done set k item) (keeps set k item ++ kept) item := by
  obtain ⟨added, hstep⟩ := exists_step done set k item
  have hmem := Walk.mem_of_getElem? hitem
  have hholds := (w.sound item hmem).holds
  have hway : givesWay set k item = false := by
    by_contra hgives
    rcases givesWay_iff.mp (by simpa using hgives) with
      ⟨i, other, hi, hother, hrivals, -⟩ | ⟨other, hother, hrivals, hrank⟩
    · obtain ⟨hfinished, hleft, -⟩ := Item.rivals_iff.mp hrivals
      exact hu.not_phrase i hi other hother ⟨hfinished, hleft.trans hphrase.2⟩
    · have hfinished := (Item.rivals_iff.mp hrivals).1
      have hotherHolds := (w.sound other hother).holds
      rcases Rule.of_rank_lt hrank with hrule | hrule
      · exact hu.not_over other hother (hotherHolds.over_of_equal hrule hfinished)
      · exact hotherHolds.rule_ne_named hat (hotherHolds.found_ne_nil hfinished) hrule
  have hkeeps : keeps set k item = [item] := by simp [keeps, hphrase.1, hway]
  have hadded : added = [] := by
    refine List.eq_nil_iff_forall_not_mem.mpr fun rule hrule => ?_
    obtain ⟨c, hnext, -⟩ := hstep.rules_expected rule hrule
    have hnone := Option.isNone_iff_eq_none.mp hphrase.1
    cases hnone.symm.trans hnext
  constructor
  case walked =>
    exact ⟨k, Nat.lt_succ_self k, (hstep.getElem?_eq (Array.getElem?_eq_some_iff.mp hitem).1).trans hitem⟩
  case phrase => exact hphrase
  case not_over => exact hu.not_over item hmem
  case copies_first =>
    refine ⟨set.toList, [], ?_, hu.not_over⟩
    rw [hstep.toList_eq, hkeeps, hadded]
    simp
  case kept_eq =>
    intro other hother hleft
    rcases List.mem_append.mp hother with hother | hother
    · exact .inl (mem_keeps_iff.mp hother).1
    · obtain ⟨hfinished, i, hi, hwalked⟩ := w.kept_walked other hother
      exact absurd ⟨hfinished, hleft⟩ (hu.not_phrase i hi other hwalked)
  case find?_eq =>
    intro hrule
    rw [← (w.find?_isMember (Nat.le_succ 2)).1]
    refine find?_of_walked hitem (hholds.isMember_of_isFinished hrule hphrase.1) fun i hi other hother => ?_
    by_contra hmember
    exact hu.not_phrase i hi other hother (Item.phrase_of_isMember (by simpa using hmember))

end Unled

/-! ### What a walk keeps -/

/-- What stands in a set is grouped, and once an expression has been walked over, one leads the set. -/
structure Leads (done : Array (Array Item)) (start : Array Item) (k : Nat) (set : Array Item) (kept : List Item) :
    Prop where
  grouped : ∀ item ∈ set.toList, ∀ part ∈ item.found, part.Grouped
  led : Unled k set ∨ ∃ lead, Led done start k set kept lead

section

variable (ho : Ordered done start) (w : Walk tokens goal done start k set following rules kept)
  (hat : ∀ token ∈ tokens, token.terminal ≠ .at)

include ho in
theorem Ordered.grouped_of_mem {m : Nat} {parents : Array Item} {parent : Item} (hparents : done[m]? = some parents)
    (hparent : parent ∈ parents) : ∀ part ∈ parent.found, part.Grouped := by
  refine ho.grouped m parent ?_
  rw [setAt_push_of_lt _ (Array.getElem?_eq_some_iff.mp hparents).1, setAt, hparents]
  exact Array.mem_toList_iff.mpr hparent

namespace Led

variable (hl : Led done start k set kept lead)

include hl w

theorem rule_ne_equal : lead.rule ≠ .exprEqual := fun hrule =>
  hl.not_over ((w.sound lead hl.lead_mem).holds.over_of_equal hrule hl.phrase.1)

/-- What leads a set stands for no equality. -/
theorem isEqual_eq_false (hproper : ∀ token ∈ tokens, token.Proper) {node : Node}
    (hparts : ∀ part ∈ lead.found, part.Grouped) (hnode : lead.node? = some node) : node.isEqual = false :=
  (w.sound lead hl.lead_mem).holds.isEqual_of_node hproper hl.phrase.1 hparts hnode hl.phrase.2 (hl.rule_ne_equal w)

include hat

theorem rule_eq_of_mem_copies (hitem : item ∈ kept) (hleft : item.rule.left = .expression)
    (hcopy : item ∈ copies done lead) : item.rule = .exprEqual := by
  obtain ⟨hfinished, i, -, hi⟩ := w.kept_walked item hitem
  exact (w.sound item (Walk.mem_of_getElem? hi)).holds.rule_eq_of_over hat ⟨hfinished, hleft⟩
    ((over_of_mem_copies hcopy).mpr hl.phrase.2)

include ho

/-- **What is kept stands for something grouped.** -/
theorem grouped_of_kept (hproper : ∀ token ∈ tokens, token.Proper) {node : Node}
    (hparts : ∀ part ∈ lead.found, part.Grouped) (hitem : item ∈ kept)
    (hitemParts : ∀ part ∈ item.found, part.Grouped) (hnode : item.node? = some node) : node.Grouped := by
  obtain ⟨hfinished, i, -, hi⟩ := w.kept_walked item hitem
  have hholds := (w.sound item (Walk.mem_of_getElem? hi)).holds
  refine hholds.grouped_of_node hproper hfinished hitemParts hnode
    (hholds.rule_ne_named hat (hholds.found_ne_nil hfinished)) ⟨fun hrule right hright => ?_, fun hrule base hbase => ?_⟩
  · rw [List.getLast?_reverse] at hright
    rcases hl.kept_eq item hitem (by rw [hrule]; rfl) with rfl | hcopy
    · exact absurd hrule (hl.rule_ne_equal w)
    · obtain ⟨leadNode, parents, parent, hleadNode, -, -, -, rfl⟩ := mem_copies_iff.mp hcopy
      cases hright
      exact hl.isEqual_eq_false w hproper hparts hleadNode
  · rw [List.head?_reverse] at hbase
    have hleft : item.rule.left = .expression := by
      rw [hrule]
      rfl
    rcases hl.kept_eq item hitem hleft with rfl | hcopy
    · exact (ho.third item (hl.find?_eq hrule)).1 base hbase
    · rw [hl.rule_eq_of_mem_copies w hat hitem hleft hcopy] at hrule
      cases hrule

end Led

/-- Of whatever is no expression the parts are all that counts. -/
theorem grouped_of_not_phrase {node : Node} (h : item.Holds tokens done.size)
    (hproper : ∀ token ∈ tokens, token.Proper) (hat : ∀ token ∈ tokens, token.terminal ≠ .at)
    (hfinished : item.isFinished) (hphrase : ¬ item.Phrase) (hparts : ∀ part ∈ item.found, part.Grouped)
    (hnode : item.node? = some node) : node.Grouped :=
  h.grouped_of_node hproper hfinished hparts hnode (h.rule_ne_named hat (h.found_ne_nil hfinished))
    ⟨fun hrule => absurd ⟨hfinished, by rw [hrule]; rfl⟩ hphrase,
      fun hrule => absurd ⟨hfinished, by rw [hrule]; rfl⟩ hphrase⟩

namespace Leads

variable (hc : Charted tokens goal done start) (hproper : ∀ token ∈ tokens, token.Proper)
  (hl : Leads done start k set kept)

include hl hc ho w hat hproper

theorem step (hitem : set[k]? = some item) :
    Leads done start (k + 1) (grown done set k item) (keeps set k item ++ kept) := by
  have hmem := Walk.mem_of_getElem? hitem
  have hled : item.Phrase → ∃ lead ∈ set.toList,
      Led done start (k + 1) (grown done set k item) (keeps set k item ++ kept) lead := by
    intro hphrase
    rcases hl.led with hu | ⟨lead, hlead⟩
    · exact ⟨item, hmem, hu.step_of_phrase w hat hitem hphrase⟩
    · exact ⟨lead, hlead.lead_mem, hlead.step hc ho w hat hproper hitem⟩
  obtain ⟨added, hstep⟩ := exists_step done set k item
  obtain ⟨rules', w'⟩ := w.step hc.soundSets hitem
  constructor
  case grouped =>
    intro other hother
    rw [hstep.toList_eq, List.mem_append, List.mem_append, List.mem_map, List.mem_flatMap] at hother
    rcases hother with hother | ⟨rule, -, rfl⟩ | ⟨phrase, hkept, hcopy⟩
    · exact hl.grouped other hother
    · exact List.forall_mem_nil _
    · obtain ⟨rfl, hfinished, -⟩ := mem_keeps_iff.mp hkept
      obtain ⟨node, parents, parent, hnode, hparents, hparent, -, rfl⟩ := mem_copies_iff.mp hcopy
      refine List.forall_mem_cons.mpr ⟨?_, ho.grouped_of_mem hparents hparent⟩
      by_cases hphrase : phrase.Phrase
      · obtain ⟨lead, hlead, hled⟩ := hled hphrase
        exact hled.grouped_of_kept ho w' hat hproper (hl.grouped lead hlead) (List.mem_append_left _ hkept)
          (hl.grouped phrase hmem) hnode
      · exact grouped_of_not_phrase (w.sound phrase hmem).holds hproper hat hfinished hphrase (hl.grouped phrase hmem)
          hnode
  case led =>
    by_cases hphrase : item.Phrase
    · obtain ⟨lead, -, hled⟩ := hled hphrase
      exact .inr ⟨lead, hled⟩
    · rcases hl.led with hu | ⟨lead, hlead⟩
      · exact .inl (hu.step_of_not_phrase hitem hphrase)
      · exact .inr ⟨lead, hlead.step hc ho w hat hproper hitem⟩

end Leads

end

end Chart

end DragonflyFabric.Language
