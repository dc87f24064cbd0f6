import DragonflyFabric.Proofs.Language.Derivations
import Mathlib.Algebra.BigOperators.Group.List.Basic
import Mathlib.Algebra.Ring.Int.Defs

/-!
# Brackets, and expressions of two kinds

Brackets of all kinds are counted together. In a phrase they are balanced, and no place of it lies less deep than
the symbols before it make it: `Item.Holds.exists_count`. Between parentheses everything lies deeper, and so does what a call has behind
its name, so that an equality is never the same tokens as one of these.

The rules for expressions are of two kinds, those that are ranked against each other and those that are not. The
same tokens are never an expression by a rule of either kind: `Item.Holds.ranked_of_rival`.
-/

namespace DragonflyFabric.Language

/-- What a token does to the depth of those behind it. -/
def Terminal.weight : Terminal → Int
  | leftBrace | leftBracket | leftParen => 1
  | rightBrace | rightBracket | rightParen => -1
  | _ => 0

/-- A phrase leaves the depth as it is. -/
def Symbol.weight : Symbol → Int
  | terminal t => t.weight
  | category _ => 0

def Symbol.isTerminal : Symbol → Bool
  | terminal _ => true
  | category _ => false

/-- The depth behind so many tokens. -/
def depth (tokens : List Token) (here : Nat) : Int := ((tokens.take here).map (·.terminal.weight)).sum

namespace Rule

/-- How much deeper it is behind so many symbols of a rule. -/
def depth (rule : Rule) (count : Nat) : Int := ((rule.right.take count).map Symbol.weight).sum

theorem depth_succ {rule : Rule} {count : Nat} {s : Symbol} (h : rule.right[count]? = some s) :
    rule.depth (count + 1) = rule.depth count + s.weight := by
  rw [depth, depth, List.take_add_one, h]
  simp

theorem depth_length (rule : Rule) : rule.depth rule.right.length = 0 := by cases rule <;> rfl

theorem depth_nonneg (rule : Rule) (count : Nat) : 0 ≤ rule.depth count := by
  rcases count with _ | _ | _ | _ | _ | count <;> cases rule <;> simp [depth, right, Symbol.weight, Terminal.weight]

/-- So many first symbols of a rule are tokens. -/
def Plain (rule : Rule) (count : Nat) : Prop := ∀ s ∈ rule.right.take count, s.isTerminal

instance (rule : Rule) (count : Nat) : Decidable (rule.Plain count) :=
  inferInstanceAs (Decidable (∀ s ∈ rule.right.take count, s.isTerminal))

theorem Plain.of_succ {rule : Rule} {count : Nat} (h : rule.Plain (count + 1)) : rule.Plain count :=
  fun s hs => h s (List.take_subset_take_left _ (Nat.le_succ count) hs)

theorem not_plain_succ {rule : Rule} {count : Nat} {c : Category} (h : rule.right[count]? = some (.category c)) :
    ¬ rule.Plain (count + 1) := by
  intro hplain
  have hmem : Symbol.category c ∈ rule.right.take (count + 1) := by
    rw [List.take_add_one, h]
    simp
  cases hplain _ hmem

/-- A rule of which no token but the first two lies as little deep as the whole, that does not begin as a name and
does not end as a member. -/
structure Closed (rule : Rule) : Prop where
  first : ∃ t, rule.right[0]? = some (.terminal t) ∧ t ≠ .at
  last : (∃ t, rule.right = [.terminal t]) ∨ ∃ t, rule.right[rule.right.length - 1]? = some (.terminal t) ∧ t ≠ .ident
  deeper : ∀ count < rule.right.length, 0 < rule.depth count ∨ count ≤ 1 ∧ rule.Plain (count + 1)

theorem plain_of_single {rule : Rule} {t : Terminal} (h : rule.right = [.terminal t]) (count : Nat) :
    rule.Plain count := by
  intro s hs
  rw [h] at hs
  cases List.mem_singleton.mp (List.mem_of_mem_take hs)
  rfl

theorem closed_of_single {rule : Rule} {t : Terminal} (h : rule.right = [.terminal t]) (hat : t ≠ .at) :
    rule.Closed where
  first := ⟨t, by rw [h]; rfl, hat⟩
  last := .inl ⟨t, h⟩
  deeper := by
    intro count hcount
    rw [h] at hcount
    exact .inr ⟨Nat.le_of_lt hcount, plain_of_single h _⟩

theorem closed_exprParens : exprParens.Closed :=
  ⟨⟨.leftParen, rfl, by decide⟩, .inr ⟨.rightParen, rfl, by decide⟩, by decide⟩

theorem closed_of_call {rule : Rule} (h : rule ∈ Category.call.rules) : rule.Closed := by
  simp only [Category.rules, List.mem_cons, List.not_mem_nil, or_false] at h
  rcases h with rfl | rfl | rfl
  all_goals exact ⟨⟨.ident, rfl, by decide⟩, .inr ⟨.rightBrace, rfl, by decide⟩, by decide⟩

/-- The rules that are ranked against each other. -/
def Ranked (rule : Rule) : Prop := rule = exprEqual ∨ rule = exprMember ∨ rule = exprNamed

instance (rule : Rule) : Decidable rule.Ranked := inferInstanceAs (Decidable (_ ∨ _ ∨ _))

theorem Ranked.left_eq {rule : Rule} (h : rule.Ranked) : rule.left = .expression := by
  rcases h with rfl | rfl | rfl <;> rfl

/-- Of the rules for expressions without rank, only that for calls hands on to another rule. -/
theorem closed_or_call {rule : Rule} (hleft : rule.left = .expression) (hrank : ¬ rule.Ranked) :
    rule.Closed ∨ rule = exprCall := by
  cases rule with
  | exprEqual | exprMember | exprNamed => exact absurd (by decide) hrank
  | exprLiteral | exprNumber | exprIdent => exact .inl (closed_of_single rfl (by decide))
  | exprParens => exact .inl closed_exprParens
  | exprCall => exact .inr rfl
  | _ => cases hleft

end Rule

theorem depth_succ {tokens : List Token} {here : Nat} {token : Token} (h : tokens[here]? = some token) :
    depth tokens (here + 1) = depth tokens here + token.terminal.weight := by
  rw [depth, depth, List.take_add_one, h]
  simp

/-- Tokens that lie deeper than their first two, do not begin as a name and do not end as a member. -/
structure Enclosed (tokens : List Token) (origin here : Nat) : Prop where
  first_ne : ∀ token, tokens[origin]? = some token → token.terminal ≠ .at
  single_or : here = origin + 1 ∨ ∃ m token, here = m + 1 ∧ tokens[m]? = some token ∧ token.terminal ≠ .ident
  deeper : ∀ m, origin < m → m + 1 < here → depth tokens origin < depth tokens (m + 1)

namespace Item.Holds

variable {tokens : List Token} {item other : Item} {here m : Nat}

/-- Depth is what the symbols found so far make of it. -/
theorem depth_eq (h : item.Holds tokens here) :
    depth tokens here = depth tokens item.origin + item.rule.depth item.found.length := by
  induction h with
  | fresh rule here => exact (Int.add_zero _).symm
  | scan _ hnext htoken ih =>
    rw [depth_succ htoken, ih, advance_rule, advance_origin, advance_found, List.length_cons, Rule.depth_succ hnext,
      Symbol.weight, Int.add_assoc]
  | complete _ hnext _ hitem hfinished _ ihparent ih =>
    rw [ih, hitem.found_eq hfinished, Rule.depth_length, ihparent, advance_rule, advance_origin, advance_found,
      List.length_cons, Rule.depth_succ hnext, Symbol.weight, Int.add_zero, Int.add_zero]

/-- Tokens are found one after another. -/
theorem here_eq (h : item.Holds tokens here) (hplain : item.rule.Plain item.found.length) :
    here = item.origin + item.found.length := by
  induction h with
  | fresh rule here => rfl
  | scan _ _ _ ih =>
    rw [ih hplain.of_succ]
    rfl
  | complete _ hnext _ _ _ _ _ _ => exact absurd hplain (Rule.not_plain_succ hnext)

/-- Every place in an item lies no less deep than the symbols before it make it. It is one of the places between
symbols, or in the middle of a phrase. -/
theorem exists_count (h : item.Holds tokens here) (hm : item.origin ≤ m) (hle : m ≤ here) :
    ∃ count ≤ item.found.length, depth tokens item.origin + item.rule.depth count ≤ depth tokens m ∧
      (count = item.found.length → m = here) ∧ (item.rule.Plain (count + 1) → m = item.origin + count) := by
  induction h with
  | fresh rule here =>
    obtain rfl : m = here := Nat.le_antisymm hle hm
    exact ⟨0, Nat.le_refl _, Int.le_of_eq (Int.add_zero _), fun _ => rfl, fun _ => rfl⟩
  | @scan item here token hitem hnext htoken ih =>
    rcases Nat.lt_or_ge here m with hlt | hge
    · obtain rfl : m = here + 1 := by omega
      have hscan := hitem.scan hnext htoken
      exact ⟨_, Nat.le_refl _, Int.le_of_eq hscan.depth_eq.symm, fun _ => rfl,
        fun hplain => hscan.here_eq hplain.of_succ⟩
    · obtain ⟨count, hcount, hdepth, -, hplain⟩ := ih hm hge
      exact ⟨count, Nat.le_succ_of_le hcount, hdepth, fun h => absurd h (by simp; omega), hplain⟩
  | @complete parent item here node hparent hnext hrule hitem hfinished hnode ihparent ih =>
    rcases Nat.lt_or_ge item.origin m with hlt | hge
    · rcases Nat.lt_or_ge m here with hbefore | hafter
      · obtain ⟨count, -, hdepth, -, -⟩ := ih (Nat.le_of_lt hlt) hle
        have hnonneg := item.rule.depth_nonneg count
        have hparentDepth := hparent.depth_eq
        refine ⟨parent.found.length, Nat.le_succ _, ?_, fun h => absurd h (by simp), fun hplain => ?_⟩
        · rw [advance_origin, advance_rule]
          omega
        · exact absurd hplain (Rule.not_plain_succ hnext)
      · obtain rfl : m = here := Nat.le_antisymm hle hafter
        have hcomplete := hparent.complete hnext hrule hitem hfinished hnode
        exact ⟨_, Nat.le_refl _, Int.le_of_eq hcomplete.depth_eq.symm, fun _ => rfl,
          fun hplain => hcomplete.here_eq hplain.of_succ⟩
    · obtain ⟨count, hcount, hdepth, -, hplain⟩ := ihparent hm hge
      exact ⟨count, Nat.le_succ_of_le hcount, hdepth, fun h => absurd h (by simp; omega), hplain⟩

/-! ### Expressions of two kinds -/

/-- A finished item encloses its tokens if its rule does. -/
theorem encloses (h : item.Holds tokens here) (hfinished : item.isFinished) (hrule : item.rule.Closed) :
    Enclosed tokens item.origin here where
  first_ne := by
    intro token htoken
    obtain ⟨t, hright, hat⟩ := hrule.first
    obtain ⟨first, hfirst, rfl⟩ := h.first_terminal (h.found_ne_nil hfinished) hright
    cases htoken.symm.trans hfirst
    exact hat
  single_or := by
    have hlength := h.found_eq hfinished
    rcases hrule.last with ⟨t, hsingle⟩ | ⟨t, hright, hident⟩
    · left
      rw [h.here_eq (Rule.plain_of_single hsingle _), hlength, hsingle, List.length_singleton]
    · obtain ⟨node, found, hfound⟩ := List.exists_cons_of_ne_nil (h.found_ne_nil hfinished)
      rw [hfound, List.length_cons] at hlength
      rw [← hlength, Nat.add_sub_cancel] at hright
      obtain ⟨m, token, hhere, -, htoken, rfl⟩ := h.of_terminal hfound hright
      exact .inr ⟨m, token, hhere, htoken, hident⟩
  deeper := by
    intro m horigin hlt
    obtain ⟨count, hcount, hdepth, hend, hplain⟩ := h.exists_count (m := m + 1) (by omega) (by omega)
    have hlength := h.found_eq hfinished
    rcases Nat.lt_or_ge count item.rule.right.length with hless | hmore
    · rcases hrule.deeper count hless with hpos | ⟨hle, hp⟩
      · omega
      · have := hplain hp
        omega
    · have := hend (by omega)
      omega

/-- An expression by a rule without rank is enclosed. A call is a phrase of its own inside of the expression. -/
theorem enclosed_of_not_ranked (h : item.Holds tokens here) (hfinished : item.isFinished)
    (hleft : item.rule.left = .expression) (hrank : ¬ item.rule.Ranked) : Enclosed tokens item.origin here := by
  rcases Rule.closed_or_call hleft hrank with hclosed | hcall
  · exact h.encloses hfinished hclosed
  · have hlength := h.found_eq hfinished
    obtain ⟨rule, origin, found⟩ := item
    obtain rfl : rule = .exprCall := hcall
    obtain ⟨node, rfl⟩ := List.length_eq_one_iff.mp hlength
    obtain ⟨inner, hparent, hrule, hinner, hinnerFinished, -⟩ := h.of_category rfl rfl
    have horigin : (⟨.exprCall, origin, []⟩ : Item) = .fresh .exprCall inner.origin := hparent.eq_fresh rfl
    cases horigin
    exact hinner.encloses hinnerFinished (Rule.closed_of_call hrule)

/-- An expression by a ranked rule is not enclosed: it begins as a name, ends as a member, or is an equality, both
sides of which are balanced. -/
theorem not_enclosed_of_ranked (h : item.Holds tokens here) (hfinished : item.isFinished)
    (hrank : item.rule.Ranked) : ¬ Enclosed tokens item.origin here := by
  intro henclosed
  have hlength := h.found_eq hfinished
  obtain ⟨rule, origin, found⟩ := item
  rcases hrank with rfl | rfl | rfl
  · obtain ⟨right, mark, left, rfl⟩ := List.length_eq_three.mp hlength
    obtain ⟨inner, hmark, -, hinner, hinnerFinished, -⟩ := h.of_category rfl rfl
    have hlt := hinner.origin_lt (hinner.found_ne_nil hinnerFinished)
    obtain ⟨m, -, hm, hleft, -⟩ := hmark.of_terminal rfl rfl
    have horigin := hleft.origin_lt (List.cons_ne_nil _ _)
    have hdepth := hmark.depth_eq
    rw [hm] at hlt hdepth
    have := henclosed.deeper m horigin hlt
    have : Rule.exprEqual.depth [mark, left].length = 0 := rfl
    dsimp only at *
    omega
  · obtain ⟨name, mark, base, rfl⟩ := List.length_eq_three.mp hlength
    obtain ⟨m, token, rfl, hmark, htoken, hident⟩ := h.of_terminal rfl rfl
    have horigin := hmark.origin_lt (List.cons_ne_nil _ _)
    rcases henclosed.single_or with hsingle | ⟨m', token', hm, htoken', hne⟩
    · dsimp only at *
      omega
    · obtain rfl : m = m' := Nat.succ.inj hm
      cases htoken.symm.trans htoken'
      exact hne hident
  · obtain ⟨token, htoken, hat⟩ := h.first_terminal (h.found_ne_nil hfinished) rfl
    exact henclosed.first_ne token htoken hat

/-- **Where one rule for an expression is ranked, so are its rivals.** -/
theorem ranked_of_rival (h : item.Holds tokens here) (hother : other.Holds tokens here) (hfinished : item.isFinished)
    (hrivals : item.rivals other) (hrank : item.rule.Ranked) : other.rule.Ranked := by
  simp only [rivals, Bool.and_eq_true, decide_eq_true_eq] at hrivals
  obtain ⟨⟨hotherFinished, hleft⟩, horigin⟩ := hrivals
  by_contra hother'
  have henclosed := hother.enclosed_of_not_ranked hotherFinished (hleft.trans hrank.left_eq) hother'
  rw [horigin] at henclosed
  exact h.not_enclosed_of_ranked hfinished hrank henclosed

end Item.Holds

end DragonflyFabric.Language
