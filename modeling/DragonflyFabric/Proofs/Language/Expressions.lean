import DragonflyFabric.Proofs.Language.Answers
import DragonflyFabric.Proofs.Language.Lead

/-!
# Expressions have one reading

Set by set the chart of an expression without names stays in order, `Chart.Ordered.next`. In the last set no two
phrases of the whole text are kept, `Chart.Leads.countP_le_one`. So an expression without names always has an answer,
and it is grouped: `parseTokens_grouped`.
-/

namespace DragonflyFabric.Language

namespace Chart

open Item (isMember_iff)

variable {tokens : List Token} {goal : Category} {done : Array (Array Item)} {start set following : Array Item}
  {rules : List Rule} {kept : List Item} {item lead : Item} {k n : Nat}

/-! ### From a set to the next one -/

namespace Foremost

theorem of_start (h : Foremost n start.toList) (hn : 2 ≤ n)
    (w : Walk tokens goal done start k set following rules kept) : Foremost n set.toList := by
  obtain ⟨hfind, hmem⟩ := w.find?_isMember hn
  intro first hfirst
  rw [hfind] at hfirst
  obtain ⟨hbase, hlast⟩ := h first hfirst
  exact ⟨hbase, fun other hother hmember => hlast other (hmem other hother hmember) hmember⟩

/-- All member accesses of so many parts take the next token, or none does. -/
theorem scan (h : Foremost n set.toList) (hn : n ≠ 0)
    (w : Walk tokens goal done start set.size set following rules kept) : Foremost (n + 1) following.toList := by
  have htake : set.toList.take set.size = set.toList := List.take_of_length_le (Nat.le_of_eq Array.length_toList)
  have hfollowing := w.following_eq
  rw [htake] at hfollowing
  intro first hfirst
  rw [hfollowing, List.find?_filterMap] at hfirst
  obtain ⟨before, hbefore, hscanned⟩ := Option.bind_eq_some_iff.mp hfirst
  obtain ⟨tok, htok, hnext, rfl⟩ := Item.scanned?_eq_some_iff.mp hscanned
  have hmember : before.isMember n = true := by
    have := List.find?_some hbefore
    rw [hscanned, Option.any_some] at this
    obtain ⟨hrule, hlength⟩ := isMember_iff.mp this
    exact isMember_iff.mpr ⟨hrule, Nat.succ.inj hlength⟩
  have hback {item scanned : Item} (hscan : item.scanned? tokens[done.size]? = some scanned)
      (hscanned : scanned.isMember (n + 1) = true) : item.isMember n = true ∧ scanned.origin = item.origin := by
    obtain ⟨tok, -, -, rfl⟩ := Item.scanned?_eq_some_iff.mp hscan
    obtain ⟨hrule, hlength⟩ := isMember_iff.mp hscanned
    exact ⟨isMember_iff.mpr ⟨hrule, Nat.succ.inj hlength⟩, rfl⟩
  have hsame : (fun item : Item => (item.scanned? tokens[done.size]?).any (Item.isMember (n + 1))) =
      Item.isMember n := by
    funext item
    rw [Bool.eq_iff_iff, Option.any_eq_true]
    constructor
    · rintro ⟨scanned, hscan, hscanned⟩
      exact (hback hscan hscanned).1
    · intro hitem
      obtain ⟨hrule, hlength⟩ := isMember_iff.mp hitem
      obtain ⟨hbeforeRule, hbeforeLength⟩ := isMember_iff.mp hmember
      have hitemNext : item.next? = some (.terminal tok.terminal) := by
        rw [Item.next?_eq_some_iff, hrule, hlength, ← hbeforeRule, ← hbeforeLength]
        exact hnext
      refine ⟨item.advance (.leaf tok), Item.scanned?_eq_some_iff.mpr ⟨tok, htok, hitemNext, rfl⟩, ?_⟩
      exact isMember_iff.mpr ⟨hrule, congrArg Nat.succ hlength⟩
  rw [hsame] at hbefore
  obtain ⟨hbase, hlast⟩ := h before hbefore
  constructor
  · intro base hbaseMem
    refine hbase base ?_
    have hne : before.found ≠ [] := by
      intro hnil
      rw [isMember_iff, hnil] at hmember
      exact hn hmember.2.symm
    obtain ⟨part, parts, hparts⟩ := List.exists_cons_of_ne_nil hne
    rw [Item.advance_found, hparts, List.getLast?_cons_cons] at hbaseMem
    rwa [hparts]
  · intro other hother hotherMember
    rw [hfollowing, List.mem_filterMap] at hother
    obtain ⟨source, hsource, hscan⟩ := hother
    obtain ⟨hsourceMember, horigin⟩ := hback hscan hotherMember
    rw [horigin]
    exact hlast source hsource hsourceMember

end Foremost

/-- A member access that has found its base began where the base did. -/
theorem Charted.base_of_mem_copies (hc : Charted tokens goal done start) (h : item ∈ copies done lead)
    (hone : item.isMember 1 = true) :
    item.origin = lead.origin ∧ ∃ node, lead.node? = some node ∧ item.found = [node] := by
  obtain ⟨node, parents, parent, hnode, hparents, hparent, -, rfl⟩ := mem_copies_iff.mp h
  have hnil : parent.found = [] := List.length_eq_zero_iff.mp (Nat.succ.inj (isMember_iff.mp hone).2)
  have hholds := (hc.soundSets _ _ hparents parent hparent).holds
  have horigin : parent.origin = lead.origin := (hholds.origin_lt_or_fresh.resolve_right fun h => h.1 hnil).2
  exact ⟨horigin, node, hnode, by rw [Item.advance_found, hnil]⟩

/-- A member access begins with each expression. -/
theorem Charted.exists_member (hc : Charted tokens goal done start) (hproper : ∀ token ∈ tokens, token.Proper)
    (hlead : lead.Sound tokens goal done.size) (hphrase : lead.Phrase) :
    ∃ copy ∈ copies done lead, copy.isMember 1 := by
  have hhere := hlead.holds.origin_lt (hlead.holds.found_ne_nil hphrase.1)
  have hbegins : Item.Begins tokens goal .exprMember lead.origin := hlead.begins.expression hphrase.2 (by decide)
  have hmem := hc.saturated.begins hbegins hhere
  rw [setAt_push_of_lt _ hhere, setAt, Array.getElem?_eq_getElem hhere] at hmem
  obtain ⟨node, hnode⟩ := hlead.holds.exists_node hproper hphrase.1
  have hnext : (Item.fresh .exprMember lead.origin).next? = some (.category lead.rule.left) := by
    rw [hphrase.2]
    rfl
  exact ⟨_, mem_copies_iff.mpr ⟨node, _, _, hnode, Array.getElem?_eq_getElem hhere, Array.mem_toList_iff.mp hmem,
    hnext, rfl⟩, rfl⟩

/-- A member access that has found its base was advanced over an expression. -/
theorem over_of_isMember_one (h : item.isMember 1 = true) : item.Over := by
  obtain ⟨hrule, hlength⟩ := isMember_iff.mp h
  obtain ⟨base, hbase⟩ := List.length_eq_one_iff.mp hlength
  exact ⟨base, [], hbase, by rw [hrule]; rfl⟩

section

variable (hc : Charted tokens goal done start) (ho : Ordered done start)
  (hproper : ∀ token ∈ tokens, token.Proper) (hat : ∀ token ∈ tokens, token.terminal ≠ .at)

namespace Leads

variable (hl : Leads done start k set kept) (w : Walk tokens goal done start k set following rules kept)

include hc ho hproper hl w

/-- **The first member access over an expression is the one over the lead.** -/
theorem foremost : Foremost 1 set.toList := by
  intro first hfirst
  have hone := List.find?_some hfirst
  have hmem := List.mem_of_find?_eq_some hfirst
  rcases hl.led with hu | ⟨lead, hlead⟩
  · exact absurd (over_of_isMember_one hone) (hu.not_over first hmem)
  · obtain ⟨before, after, hlist, hbefore⟩ := hlead.copies_first
    have hsound := w.sound lead hlead.lead_mem
    have hcopy : first ∈ copies done lead := by
      have hnone : before.find? (Item.isMember 1) = none :=
        List.find?_eq_none.mpr fun item hitem hmember => hbefore item hitem (over_of_isMember_one hmember)
      rw [hlist, List.find?_append, hnone, Option.none_or, List.find?_append] at hfirst
      obtain ⟨copy, hcopy, hmember⟩ := hc.exists_member hproper hsound hlead.phrase
      cases hfind : (copies done lead).find? (Item.isMember 1) with
      | none => exact absurd hmember (List.find?_eq_none.mp hfind copy hcopy)
      | some found =>
        rw [hfind] at hfirst
        cases hfirst
        exact List.mem_of_find?_eq_some hfind
    obtain ⟨horigin, node, hnode, hfound⟩ := hc.base_of_mem_copies hcopy hone
    constructor
    · intro base hbase
      rw [hfound] at hbase
      cases hbase
      exact hlead.isEqual_eq_false w hproper (hl.grouped lead hlead.lead_mem) hnode
    · intro other hother hmember
      obtain ⟨more, hmore, hnew⟩ := w.exists_more
      rw [hmore, List.mem_append] at hother
      rcases hother with hother | hother
      · exact absurd (over_of_isMember_one hmember) (ho.not_over other hother)
      · rcases hnew other hother with ⟨rule, rfl⟩ | ⟨phrase, hkept, hcopy'⟩
        · exact absurd (over_of_isMember_one hmember) (Item.not_over_fresh rule _)
        · rw [(hc.base_of_mem_copies hcopy' hmember).1, horigin]
          exact hlead.origin_le_of_kept hc hkept ((over_of_mem_copies hcopy').mp (over_of_isMember_one hmember))

omit ho hproper

include hat

/-- **No two expressions that are kept begin at one place.** -/
theorem countP_le_one (waiting : Nat × Item) (hwaiting : waiting.2.next? = some (.category .expression)) :
    kept.countP (waits waiting) ≤ 1 := by
  rw [List.countP_eq_length_filter]
  refine length_le_one ((w.kept_apart.filter _).imp_of_mem ?_)
  intro later earlier hlater hearlier hapart
  obtain ⟨hlaterKept, hlaterWaits⟩ := List.mem_filter.mp hlater
  obtain ⟨hearlierKept, hearlierWaits⟩ := List.mem_filter.mp hearlier
  obtain ⟨horigin, hnext⟩ := waits_iff.mp hlaterWaits
  obtain ⟨horigin', hnext'⟩ := waits_iff.mp hearlierWaits
  have hleft := (Symbol.category.inj (Option.some.inj (hwaiting.symm.trans hnext))).symm
  have hleft' := (Symbol.category.inj (Option.some.inj (hwaiting.symm.trans hnext'))).symm
  have hrank := hapart (hleft.trans hleft'.symm) (horigin.symm.trans horigin')
  obtain ⟨hfinished, i, hi, hwalked⟩ := w.kept_walked later hlaterKept
  rcases hl.led with hu | ⟨lead, hlead⟩
  · exact hu.not_phrase i hi later hwalked ⟨hfinished, hleft⟩
  · have hequal : later.rule = .exprEqual := by
      have hholds := (w.sound later (Walk.mem_of_getElem? hwalked)).holds
      exact (Rule.of_rank_gt hrank).resolve_right (hholds.rule_ne_named hat (hholds.found_ne_nil hfinished))
    rcases hlead.kept_eq later hlaterKept hleft with rfl | hcopy
    · exact hlead.rule_ne_equal w hequal
    · have hlt := hc.origin_lt_of_mem_copies hcopy hequal hfinished
      rcases hlead.kept_eq earlier hearlierKept hleft' with rfl | hcopy'
      · omega
      · rw [hequal, hlead.rule_eq_of_mem_copies w hat hearlierKept hleft' hcopy'] at hrank
        cases hrank

end Leads

theorem ordered_begin (goal : Category) : Ordered #[] #[.fresh (.whole goal) 0] where
  grouped := by
    intro here item hitem
    cases here with
    | zero =>
      cases List.mem_singleton.mp hitem
      exact List.forall_mem_nil _
    | succ here =>
      rw [setAt_of_le (by simp)] at hitem
      exact absurd hitem List.not_mem_nil
  not_over := by
    intro item hitem
    cases List.mem_singleton.mp hitem
    exact Item.not_over_fresh _ _
  second := by
    intro first hfirst
    simp [Item.isMember, Item.fresh] at hfirst
  third := by
    intro first hfirst
    simp [Item.isMember, Item.fresh] at hfirst

theorem leads_begin (ho : Ordered done start) : Leads done start 0 start [] where
  grouped := fun item hitem => ho.grouped done.size item (by rwa [setAt_push_size])
  led := .inl ⟨fun _ h => absurd h (Nat.not_lt_zero _), ho.not_over⟩

include hc ho hproper in
/-- **The chart stays in order when its last set has been walked.** -/
theorem Ordered.next (hl : Leads done start set.size set kept)
    (w : Walk tokens goal done start set.size set following rules kept) : Ordered (done.push set) following where
  grouped := by
    intro here item hitem
    rcases Nat.lt_trichotomy here done.size with h | rfl | h
    · rw [setAt_next_of_lt start h] at hitem
      exact ho.grouped here item hitem
    · rw [setAt_next_size] at hitem
      exact hl.grouped item hitem
    · rcases Nat.lt_or_ge (done.size + 1) here with h' | h'
      · rw [setAt_of_le (by rw [Array.size_push, Array.size_push]; omega)] at hitem
        exact absurd hitem List.not_mem_nil
      · obtain rfl : here = done.size + 1 := by omega
        rw [setAt_next_succ, w.mem_following_iff] at hitem
        obtain ⟨tok, before, -, hmem, -, rfl⟩ := hitem
        exact List.forall_mem_cons.mpr ⟨trivial, hl.grouped before hmem⟩
  not_over := by
    intro item hitem
    obtain ⟨tok, before, -, -, hnext, rfl⟩ := w.mem_following_iff.mp hitem
    rw [Item.over_advance_iff, hnext]
    rintro ⟨⟩
  second := (hl.foremost hc ho hproper w).scan Nat.one_ne_zero w
  third := (ho.second.of_start (Nat.le_refl 2) w).scan (Nat.succ_ne_zero 1) w

end

/-! ### The last set -/

/-- **In the last set of a chart without names there is one whole text at most,** and it stands for something
grouped. -/
theorem ordered_last? (hproper : ∀ token ∈ tokens, token.Proper) (hat : ∀ token ∈ tokens, token.terminal ≠ .at)
    (rest : List Token) : ∀ {done start}, Charted tokens .expression done start → Ordered done start →
      rest = tokens.drop done.size → ∀ last, last? done (done.toList.map Array.size).sum start rest = some last →
        (∀ item ∈ last.toList, isWhole .expression item → ∀ node, item.node? = some node → node.Grouped) ∧
          last.toList.countP (isWhole .expression) ≤ 1 := by
  induction rest with
  | nil =>
    intro done start hc ho hrest last hlast
    have hnone : none = tokens[done.size]? := by
      rw [← List.head?_drop, ← hrest]
      rfl
    obtain ⟨set, following, rules, kept, hgrow, w, hl⟩ := hc.exists_walk_of (P := Leads done start) hnone
      (fun w hitem hl => hl.step ho w hat hc hproper hitem) (leads_begin ho)
    rw [last?, hgrow] at hlast
    split at hlast
    · cases hlast
    · cases hlast
      refine ⟨fun item hitem hwhole node hnode => ?_,
        (hc.countP_whole_le w).trans (hl.countP_le_one hc hat w _ rfl)⟩
      simp only [isWhole, Bool.and_eq_true, decide_eq_true_eq] at hwhole
      obtain ⟨hrule, hfinished⟩ := hwhole
      have hphrase : ¬ item.Phrase := by
        rintro ⟨-, hleft⟩
        rw [hrule] at hleft
        cases hleft
      exact grouped_of_not_phrase (w.sound item hitem).holds hproper hat hfinished hphrase (hl.grouped item hitem) hnode
  | cons token rest ih =>
    intro done start hc ho hrest last hlast
    have htoken : tokens[done.size]? = some token := by
      rw [← List.head?_drop, ← hrest]
      rfl
    obtain ⟨set, following, rules, kept, hgrow, w, hl⟩ := hc.exists_walk_of (P := Leads done start) htoken.symm
      (fun w hitem hl => hl.step ho w hat hc hproper hitem) (leads_begin ho)
    have hrest' : rest = tokens.drop (done.push set).size := by
      rw [Array.size_push, ← List.tail_drop, ← hrest]
      rfl
    rw [last?, hgrow] at hlast
    split at hlast
    · cases hlast
    · refine ih (hc.next hproper w) (Ordered.next hc ho hproper hl w) hrest' last ?_
      rw [Array.toList_push, List.map_append, List.sum_append]
      simpa using hlast

end Chart

/-! ### The parser -/

variable {tokens : List Token} {goal : Category}

/-- With one whole text at most in the last set, the parser answers what that one stands for. -/
theorem exists_answer (haccepts : parseTokens goal tokens ≠ .error .notInGrammar) {last : Array Item}
    (hlast : Chart.last? #[] 0 #[.fresh (.whole goal) 0] tokens = some last)
    (hcount : last.toList.countP (Chart.isWhole goal) ≤ 1) : ∃ item ∈ last.toList, Chart.isWhole goal item ∧
      ∃ node, item.node? = some node ∧ parseTokens goal tokens = .ok node := by
  have hparse := parseTokens_eq goal tokens
  rw [hlast, Option.getD_some] at hparse
  rw [List.countP_eq_length_filter] at hcount
  rcases hfilter : last.toList.filter (Chart.isWhole goal) with _ | ⟨item, _ | ⟨second, more⟩⟩
  · rw [hfilter] at hparse
    exact absurd hparse haccepts
  · rw [hfilter] at hparse
    dsimp only at hparse
    obtain ⟨hmem, hwhole⟩ := List.mem_filter.mp (hfilter ▸ List.mem_cons_self : item ∈ List.filter _ _)
    cases hnode : item.node? with
    | none =>
      rw [hnode] at hparse
      exact absurd hparse haccepts
    | some node =>
      rw [hnode] at hparse
      exact ⟨item, hmem, hwhole, node, hnode, hparse⟩
  · rw [hfilter, List.length_cons, List.length_cons] at hcount
    omega

/-- **An expression without names has one reading.** The parser answers it, and in it member access binds tighter than
equality and equality associates to the left, at every depth. -/
theorem parseTokens_grouped (tokens : List Token) (hproper : ∀ token ∈ tokens, token.Proper)
    (hat : ∀ token ∈ tokens, token.terminal ≠ .at) (hderived : ∃ tree : Tree, tree.Derives .expression tokens) :
    ∃ e, parseTokens .expression tokens = .ok (.expression e) ∧ e.Grouped ∧
      ∃ tree : Tree, tree.Derives .expression tokens ∧ tree.node? = some (.expression e) := by
  obtain ⟨hrejects, hanswers⟩ := parseTokens_exact .expression tokens hproper
  have haccepts : parseTokens .expression tokens ≠ .error .notInGrammar := fun h => hrejects.mp h hderived
  obtain ⟨node, hparse, hgrouped⟩ : ∃ node, parseTokens .expression tokens = .ok node ∧ node.Grouped := by
    cases hlast : Chart.last? #[] 0 #[.fresh (.whole .expression) 0] tokens with
    | none =>
      rw [parseTokens_eq, hlast] at haccepts
      exact absurd rfl haccepts
    | some last =>
      obtain ⟨hgrouped, hcount⟩ := Chart.ordered_last? hproper hat tokens (Chart.charted_begin tokens .expression)
        (Chart.ordered_begin .expression) rfl last hlast
      obtain ⟨item, hmem, hwhole, node, hnode, hparse⟩ := exists_answer haccepts hlast hcount
      exact ⟨node, hparse, hgrouped item hmem hwhole node hnode⟩
  obtain ⟨tree, htree, hnode⟩ := hanswers node hparse
  obtain ⟨node', hnode', hfits⟩ := htree.valid.exists_node (by rwa [htree.tokens_eq])
  cases hnode.symm.trans hnode'
  rw [htree.root_eq] at hfits
  obtain ⟨e, rfl⟩ := hfits
  exact ⟨e, hparse, hgrouped, tree, htree, hnode⟩

/-- With a name there can be two readings, here of `a == @b.c`. -/
example : parseTokens .expression [.ident "a", .mark .equalEqual, .mark .at, .ident "b", .mark .dot, .ident "c"]
    matches .error .ambiguous := by decide +kernel

/-- The tokens of `a == b.c == f{k: (d == e),}`. -/
def chain : List Token :=
  [.ident "a", .mark .equalEqual, .ident "b", .mark .dot, .ident "c", .mark .equalEqual, .ident "f", .mark .leftBrace,
    .ident "k", .mark .colon, .mark .leftParen, .ident "d", .mark .equalEqual, .ident "e", .mark .rightParen,
    .mark .comma, .mark .rightBrace]

/-- The structure of what they stand for. -/
def chainText : String :=
  "Equality(Equality(Ident(\"a\"), Member(Ident(\"b\"), \"c\")), FunctionCall(\"f\", [(\"k\", " ++
    "Parentheses(Equality(Ident(\"d\"), Ident(\"e\"))))]))"

theorem structureText_chain : (match parseTokens .expression chain with
    | .ok (.expression e) => e.structureText
    | _ => "") = chainText := by
  decide +kernel

/-- A chain of equalities with a member and a call in it. -/
theorem parseTokens_grouped_chain : (∀ token ∈ chain, token.Proper) ∧ (∀ token ∈ chain, token.terminal ≠ .at) ∧
    (∃ tree : Tree, tree.Derives .expression chain) ∧ ∃ e, parseTokens .expression chain = .ok (.expression e) ∧
      e.Grouped ∧ e.structureText = chainText := by
  have hproper : ∀ token ∈ chain, token.Proper := by simp [chain, Token.Proper]
  have hat : ∀ token ∈ chain, token.terminal ≠ .at := by simp [chain, Token.terminal]
  have htext := structureText_chain
  obtain ⟨node, hnode⟩ : ∃ node, parseTokens .expression chain = .ok node := by
    cases hparse : parseTokens .expression chain with
    | ok node => exact ⟨node, rfl⟩
    | error f =>
      rw [hparse] at htext
      have hempty : "" = chainText := htext
      exact absurd hempty (by decide +kernel)
  obtain ⟨tree, htree, -⟩ := (parseTokens_exact .expression chain hproper).2 node hnode
  obtain ⟨e, hparse, hgrouped, -⟩ := parseTokens_grouped chain hproper hat ⟨tree, htree⟩
  rw [hparse] at htext
  exact ⟨hproper, hat, ⟨tree, htree⟩, e, hparse, hgrouped, htext⟩

end DragonflyFabric.Language
