import DragonflyFabric.Proofs.Language.Parsing

/-!
# Grouped expressions

Equality associates to the left and member access binds tighter: an expression is grouped if at no depth an equality
is the right side of an equality or the base of a member. A rule builds a grouped expression from grouped parts,
unless the equality would come to stand in one of these places, `Item.Holds.grouped_of_node`.

Where an expression begins is told by the token in front of it, `Item.Begins.opening`, and no expression ends in such a
token. So of two expressions that end at one place, the longer one has an equality in front of the shorter one:
`Item.Holds.exists_split`.
-/

namespace DragonflyFabric.Language

namespace Expr

def isEqual : Expr → Bool
  | equal _ _ => true
  | _ => false

/-- Without names, an equality is nowhere the right side of an equality or the base of a member. -/
inductive Grouped : Expr → Prop
  | equal {left right : Expr} : Grouped left → Grouped right → right.isEqual = false → Grouped (equal left right)
  | literal (text : String) : Grouped (literal text)
  | number (value : Float) : Grouped (number value)
  | ident (name : String) : Grouped (ident name)
  | member {base : Expr} (name : String) : Grouped base → base.isEqual = false → Grouped (member base name)
  | parens {inner : Expr} : Grouped inner → Grouped (parens inner)
  | call (name : String) {args : List (String × Expr)} : (∀ arg ∈ args, Grouped arg.2) → Grouped (call name args)

end Expr

namespace Node

/-- The expressions of a node are grouped. -/
def Grouped : Node → Prop
  | expression e => e.Grouped
  | call e => e.Grouped ∧ e.isEqual = false
  | arguments args => ∀ arg ∈ args, arg.2.Grouped
  | argument _ e => e.Grouped
  | _ => True

def isEqual : Node → Bool
  | expression e => e.isEqual
  | _ => false

end Node

namespace Rule

/-- The parts of an expression that are not to be equalities are none. -/
def Fair (rule : Rule) (nodes : List Node) : Prop :=
  (rule = exprEqual → ∀ right ∈ nodes.getLast?, right.isEqual = false) ∧
    (rule = exprMember → ∀ base ∈ nodes.head?, base.isEqual = false)

section

variable {rule : Rule} {nodes : List Node} {node : Node} (hfits : List.Forall₂ Symbol.Fits rule.right nodes)
  (h : rule.build nodes = some node) (hnodes : ∀ part ∈ nodes, part.Grouped)

include hfits h hnodes

/-- From grouped parts a rule builds something grouped, if the parts that are not to be equalities are none. -/
theorem grouped_of_build (hnamed : rule ≠ exprNamed) (hfair : rule.Fair nodes) : node.Grouped := by
  obtain ⟨hequal, hmember⟩ := hfair
  -- what is no expression, call or argument of one is told by its category
  obtain ⟨built, hbuilt, hbuiltFits⟩ := rule.exists_build hfits
  cases h.symm.trans hbuilt
  cases rule with
  | whole =>
    obtain _ | ⟨-, _ | _⟩ := hfits
    cases h
    exact hnodes _ List.mem_cons_self
  | exprEqual =>
    obtain _ | ⟨⟨l, rfl⟩, _ | ⟨rfl, _ | ⟨⟨r, rfl⟩, _ | _⟩⟩⟩ := hfits
    cases h
    exact .equal (hnodes (.expression l) (by simp)) (hnodes (.expression r) (by simp)) (hequal rfl (.expression r) rfl)
  | exprLiteral =>
    obtain _ | ⟨⟨s, rfl⟩, _ | _⟩ := hfits
    cases h
    exact .literal s
  | exprNumber =>
    obtain _ | ⟨⟨x, rfl⟩, _ | _⟩ := hfits
    cases h
    exact .number x
  | exprIdent =>
    obtain _ | ⟨⟨name, rfl⟩, _ | _⟩ := hfits
    cases h
    exact .ident name
  | exprMember =>
    obtain _ | ⟨⟨e, rfl⟩, _ | ⟨rfl, _ | ⟨⟨name, rfl⟩, _ | _⟩⟩⟩ := hfits
    cases h
    exact .member name (hnodes (.expression e) (by simp)) (hmember rfl (.expression e) rfl)
  | exprParens =>
    obtain _ | ⟨rfl, _ | ⟨⟨e, rfl⟩, _ | ⟨rfl, _ | _⟩⟩⟩ := hfits
    cases h
    exact .parens (hnodes (.expression e) (by simp))
  | exprNamed => exact absurd rfl hnamed
  | exprCall =>
    obtain _ | ⟨⟨e, rfl⟩, _ | _⟩ := hfits
    cases h
    exact (hnodes (.call e) (by simp)).1
  | callEmpty =>
    obtain _ | ⟨⟨name, rfl⟩, _ | ⟨rfl, _ | ⟨rfl, _ | _⟩⟩⟩ := hfits
    cases h
    exact ⟨.call name (by simp), rfl⟩
  | callFull =>
    obtain _ | ⟨⟨name, rfl⟩, _ | ⟨rfl, _ | ⟨⟨args, rfl⟩, _ | ⟨rfl, _ | _⟩⟩⟩⟩ := hfits
    cases h
    exact ⟨.call name fun arg harg => hnodes (.arguments args) (by simp) arg (List.mem_reverse.mp harg), rfl⟩
  | callTrailing =>
    obtain _ | ⟨⟨name, rfl⟩, _ | ⟨rfl, _ | ⟨⟨args, rfl⟩, _ | ⟨rfl, _ | ⟨rfl, _ | _⟩⟩⟩⟩⟩ := hfits
    cases h
    exact ⟨.call name fun arg harg => hnodes (.arguments args) (by simp) arg (List.mem_reverse.mp harg), rfl⟩
  | argumentsOne =>
    obtain _ | ⟨⟨key, e, rfl⟩, _ | _⟩ := hfits
    cases h
    exact List.forall_mem_singleton.mpr (hnodes (.argument key e) (by simp))
  | argumentsMore =>
    obtain _ | ⟨⟨args, rfl⟩, _ | ⟨rfl, _ | ⟨⟨key, e, rfl⟩, _ | _⟩⟩⟩ := hfits
    cases h
    exact List.forall_mem_cons.mpr ⟨hnodes (.argument key e) (by simp), hnodes (.arguments args) (by simp)⟩
  | argument =>
    obtain _ | ⟨⟨key, rfl⟩, _ | ⟨rfl, _ | ⟨⟨e, rfl⟩, _ | _⟩⟩⟩ := hfits
    cases h
    exact hnodes (.expression e) (by simp)
  | pair =>
    obtain ⟨key, v, rfl⟩ := hbuiltFits
    trivial
  | _ =>
    obtain ⟨_, rfl⟩ := hbuiltFits
    trivial

/-- Of the rules for expressions only that for equalities builds one. -/
theorem isEqual_of_build (hleft : rule.left = .expression) (hrule : rule ≠ exprEqual) : node.isEqual = false := by
  cases rule with
  | exprEqual => exact absurd rfl hrule
  | exprLiteral | exprNumber | exprIdent =>
    obtain _ | ⟨⟨_, rfl⟩, _ | _⟩ := hfits
    cases h
    rfl
  | exprMember =>
    obtain _ | ⟨⟨e, rfl⟩, _ | ⟨rfl, _ | ⟨⟨name, rfl⟩, _ | _⟩⟩⟩ := hfits
    cases h
    rfl
  | exprParens =>
    obtain _ | ⟨rfl, _ | ⟨⟨e, rfl⟩, _ | ⟨rfl, _ | _⟩⟩⟩ := hfits
    cases h
    rfl
  | exprNamed =>
    obtain _ | ⟨rfl, _ | ⟨⟨e, rfl⟩, _ | _⟩⟩ := hfits
    cases h
    rfl
  | exprCall =>
    obtain _ | ⟨⟨e, rfl⟩, _ | _⟩ := hfits
    cases h
    exact (hnodes (.call e) (by simp)).2
  | _ => cases hleft

end

end Rule

/-! ### Where expressions begin and end -/

/-- What can stand in front of an expression. -/
def Terminal.opens : Terminal → Bool
  | equalEqual | leftParen | colon | whereWord | equal | .at => true
  | _ => false

/-- An expression can begin here: there is nothing in front, or a token that opens. -/
def Opening (tokens : List Token) (here : Nat) : Prop :=
  here = 0 ∨ ∃ m token, here = m + 1 ∧ tokens[m]? = some token ∧ token.terminal.opens

namespace Rule

variable {rule : Rule} {n : Nat}

theorem exists_opens (h : rule.right[n + 1]? = some (.category .expression)) :
    ∃ t, rule.right[n]? = some (.terminal t) ∧ t.opens := by
  rcases n with _ | _ | _ | _ | _ | n <;> cases rule <;> simp_all [right, Terminal.opens]

theorem left_or_whole (h : rule.right[0]? = some (.category .expression)) :
    rule.left = .expression ∨ ∃ goal, rule = whole goal := by
  cases rule <;> simp_all [right, left]

/-- An expression ends in a token that does not open, or in an expression or a call. -/
theorem last_of_expression {s : Symbol} (hleft : rule.left = .expression ∨ rule.left = .call)
    (hs : rule.right[n]? = some s) (hlast : rule.right.length ≤ n + 1) :
    (∃ t, s = .terminal t ∧ t.opens = false) ∨ s = .category .expression ∨ s = .category .call := by
  rcases n with _ | _ | _ | _ | _ | n <;> cases rule <;> simp_all [right, left] <;> subst hs <;>
    simp_all [Terminal.opens]

/-- What an expression without rank begins with opens nothing, or something deeper. -/
theorem first_of_not_ranked (hleft : rule.left = .expression ∨ rule.left = .call) (hrank : ¬ rule.Ranked) :
    rule = exprCall ∨ ∃ t, rule.right[0]? = some (.terminal t) ∧ (t.opens → t.weight = 1) := by
  cases rule <;> simp_all [right, left, Ranked, Terminal.opens, Terminal.weight]

/-- Of the tokens that a ranked rule joins only the sign of equality opens, a name apart. -/
theorem Ranked.of_opens {t : Terminal} (h : rule.Ranked) (hs : rule.right[n]? = some (.terminal t)) (hopens : t.opens)
    (hat : t ≠ .at) : rule = exprEqual ∧ n = 1 := by
  rcases h with rfl | rfl | rfl <;> rcases n with _ | _ | _ | n <;> simp_all [right] <;> subst hs <;>
    simp_all [Terminal.opens]

/-- A ranked rule joins expressions, the first of them at its beginning, behind a sign of equality or in a name. -/
theorem Ranked.of_category {c : Category} (h : rule.Ranked) (hs : rule.right[n]? = some (.category c)) :
    c = .expression ∧ (n = 0 ∨ rule = exprEqual ∧ n = 2 ∨ rule = exprNamed) := by
  rcases h with rfl | rfl | rfl <;> rcases n with _ | _ | _ | n <;> simp_all [right]

theorem Ranked.depth_eq_zero (h : rule.Ranked) (count : Nat) : rule.depth count = 0 := by
  rcases count with _ | _ | _ | count <;> rcases h with rfl | rfl | rfl <;>
    simp [depth, right, Symbol.weight, Terminal.weight]

end Rule

namespace Item

variable {tokens : List Token} {goal : Category} {item : Item} {here m : Nat}

theorem Begins.origin_of_whole {g : Category} (h : Begins tokens goal (.whole g) m) : m = 0 := by
  generalize hrule : Rule.whole g = rule at h
  cases h with
  | whole => rfl
  | @expected _ _ c _ _ _ _ hmem =>
    subst hrule
    have hc : c = .text := (Category.left_of_mem hmem).symm
    subst hc
    cases hmem

/-- **An expression begins behind a token that opens.** -/
theorem Begins.opening {rule : Rule} (h : Begins tokens goal rule m) (hleft : rule.left = .expression) :
    Opening tokens m := by
  induction h with
  | whole => cases hleft
  | @expected item here c rule hbegins hholds hnext hmem ih =>
    obtain rfl : c = .expression := (Category.left_of_mem hmem).symm.trans hleft
    rw [next?_eq_some_iff] at hnext
    obtain ⟨irule, origin, found⟩ := item
    cases found with
    | nil =>
      obtain rfl : origin = here := congrArg Item.origin (hholds.eq_fresh rfl)
      rcases Rule.left_or_whole hnext with hirule | ⟨g, rfl⟩
      · exact ih hirule
      · exact .inl hbegins.origin_of_whole
    | cons node found =>
      obtain ⟨t, hright, hopens⟩ := Rule.exists_opens hnext
      obtain ⟨m, token, rfl, -, htoken, rfl⟩ := hholds.of_terminal rfl hright
      exact .inr ⟨m, token, rfl, htoken, hopens⟩

/-- Where one expression begins, each of them does. -/
theorem Begins.expression {rule other : Rule} (h : Begins tokens goal rule m) (hleft : rule.left = .expression)
    (hother : other ∈ Category.expression.rules) : Begins tokens goal other m := by
  cases h with
  | whole => cases hleft
  | @expected _ _ c _ hbegins hholds hnext hmem =>
    obtain rfl : c = .expression := (Category.left_of_mem hmem).symm.trans hleft
    exact .expected hbegins hholds hnext hother

namespace Holds

section

variable {node : Node} (hproper : ∀ token ∈ tokens, token.Proper) (h : item.Holds tokens here)
  (hfinished : item.isFinished) (hparts : ∀ part ∈ item.found, part.Grouped) (hnode : item.node? = some node)

include hproper h hfinished hparts hnode

/-- **What is built from grouped parts is grouped,** if the parts that are not to be equalities are none. -/
theorem grouped_of_node (hnamed : item.rule ≠ .exprNamed) (hfair : item.rule.Fair item.found.reverse) : node.Grouped :=
  Rule.grouped_of_build (h.fits_of_isFinished hproper hfinished) hnode
    (fun part hpart => hparts part (List.mem_reverse.mp hpart)) hnamed hfair

theorem isEqual_of_node (hleft : item.rule.left = .expression) (hrule : item.rule ≠ .exprEqual) :
    node.isEqual = false :=
  Rule.isEqual_of_build (h.fits_of_isFinished hproper hfinished) hnode
    (fun part hpart => hparts part (List.mem_reverse.mp hpart)) hleft hrule

end

/-- **No expression begins where one ends.** -/
theorem not_opening (h : item.Holds tokens here) (hfinished : item.isFinished)
    (hleft : item.rule.left = .expression ∨ item.rule.left = .call) : ¬ Opening tokens here := by
  induction h with
  | fresh rule here =>
    have := isFinished_iff.mp hfinished
    have hpos := rule.right_pos
    exact absurd (Nat.lt_of_lt_of_le hpos this) (Nat.lt_irrefl 0)
  | @scan item here token _ hnext htoken _ =>
    have hlast : item.rule.right.length ≤ item.found.length + 1 := isFinished_iff.mp hfinished
    rw [advance_rule] at hleft
    rcases Rule.last_of_expression hleft (next?_eq_some_iff.mp hnext) hlast with ⟨t, ht, hopens⟩ | ht | ht
    · cases ht
      rintro (hzero | ⟨m, other, hm, hother, hopens'⟩)
      · cases hzero
      · cases hm
        cases htoken.symm.trans hother
        rw [hopens] at hopens'
        cases hopens'
    · cases ht
    · cases ht
  | @complete parent item here node _ hnext _ _ hinner _ _ ih =>
    have hlast : parent.rule.right.length ≤ parent.found.length + 1 := isFinished_iff.mp hfinished
    rw [advance_rule] at hleft
    refine ih hinner ?_
    rcases Rule.last_of_expression hleft (next?_eq_some_iff.mp hnext) hlast with ⟨t, ht, -⟩ | ht | ht
    · cases ht
    · exact .inl (Symbol.category.inj ht)
    · exact .inr (Symbol.category.inj ht)

/-- The first token of an expression without rank. -/
theorem exists_first (h : item.Holds tokens here) (hfinished : item.isFinished)
    (hleft : item.rule.left = .expression ∨ item.rule.left = .call) (hrank : ¬ item.rule.Ranked) :
    ∃ token, tokens[item.origin]? = some token ∧ (token.terminal.opens → token.terminal.weight = 1) := by
  rcases Rule.first_of_not_ranked hleft hrank with hcall | ⟨t, hright, ht⟩
  · have hlength := h.found_eq hfinished
    obtain ⟨rule, origin, found⟩ := item
    obtain rfl : rule = .exprCall := hcall
    obtain ⟨node, rfl⟩ := List.length_eq_one_iff.mp hlength
    obtain ⟨inner, hparent, hrule, hinner, hinnerFinished, -⟩ := h.of_category rfl rfl
    have horigin : (⟨.exprCall, origin, []⟩ : Item) = .fresh .exprCall inner.origin := hparent.eq_fresh rfl
    cases horigin
    have hcalls : ∀ rule ∈ Category.call.rules, ¬ rule.Ranked ∧ rule ≠ .exprCall ∧ rule.left = .call := by decide
    obtain ⟨hinnerRank, hne, hinnerLeft⟩ := hcalls inner.rule hrule
    obtain ⟨t, hright, ht⟩ := (Rule.first_of_not_ranked (.inr hinnerLeft) hinnerRank).resolve_left hne
    obtain ⟨token, htoken, rfl⟩ := hinner.first_terminal (hinner.found_ne_nil hinnerFinished) hright
    exact ⟨token, htoken, ht⟩
  · obtain ⟨token, htoken, rfl⟩ := h.first_terminal (h.found_ne_nil hfinished) hright
    exact ⟨token, htoken, ht⟩

/-- In an expression without rank others begin deeper. -/
theorem depth_lt_of_opening (h : item.Holds tokens here) (hfinished : item.isFinished)
    (hleft : item.rule.left = .expression) (hrank : ¬ item.rule.Ranked) (hlt : item.origin < m) (hhere : m < here)
    (hopens : Opening tokens m) : depth tokens item.origin < depth tokens m := by
  have henclosed := h.enclosed_of_not_ranked hfinished hleft hrank
  rcases hopens with rfl | ⟨n, token, rfl, htoken, hopens⟩
  · exact absurd hlt (Nat.not_lt_zero _)
  · rcases Nat.eq_or_lt_of_le (Nat.le_of_lt_succ hlt) with horigin | horigin
    · obtain ⟨first, hfirst, hweight⟩ := h.exists_first hfinished (.inl hleft) hrank
      rw [horigin, htoken] at hfirst
      cases hfirst
      rw [depth_succ htoken, hweight hopens, horigin]
      omega
    · exact henclosed.deeper n horigin hhere

/-- An expression that is finished lies as deep at its end as where it begins. -/
theorem depth_eq_of_isFinished (h : item.Holds tokens here) (hfinished : item.isFinished) :
    depth tokens here = depth tokens item.origin := by
  rw [h.depth_eq, h.found_eq hfinished, Rule.depth_length, Int.add_zero]

/-- Of `a == b == c` the first equality can be read as the left side of the second one. -/
theorem regroup (hproper : ∀ token ∈ tokens, token.Proper) {mark left : Node}
    (h : item.Holds tokens here) (hrule : item.rule = .exprEqual) (hfound : item.found.length = 2)
    (hright : Holds tokens ⟨.exprEqual, here, [mark, left]⟩ m) :
    ∃ mark left, Holds tokens ⟨.exprEqual, item.origin, [mark, left]⟩ m := by
  obtain ⟨rule, origin, found⟩ := item
  obtain rfl : rule = .exprEqual := hrule
  obtain ⟨sign, first, rfl⟩ := List.length_eq_two.mp hfound
  obtain ⟨n, token, rfl, hleft, htoken, hterminal⟩ := hright.of_terminal rfl rfl
  obtain ⟨inner, hinnerOrigin, hinnerRule, hinner, hinnerFinished, hnode⟩ := hleft.of_category rfl rfl
  obtain rfl : here = inner.origin := congrArg Item.origin (hinnerOrigin.eq_fresh rfl)
  have hexpression := Category.left_of_mem hinnerRule
  have hwhole := h.complete (congrArg (some ∘ Symbol.category) hexpression).symm (hexpression ▸ hinnerRule) hinner
    hinnerFinished hnode
  obtain ⟨node, hwholeNode⟩ := hwhole.exists_node hproper rfl
  have hmem : Rule.exprEqual ∈ Category.expression.rules := List.mem_cons_self
  have hbase := (Holds.fresh .exprEqual origin).complete rfl hmem hwhole rfl hwholeNode
  exact ⟨_, _, hbase.scan (congrArg (some ∘ Symbol.terminal) hterminal).symm htoken⟩

/-- **Where an expression has another one at its end,** with brackets balanced in between, it is an equality up to
there. -/
theorem exists_split (hproper : ∀ token ∈ tokens, token.Proper) (hat : ∀ token ∈ tokens, token.terminal ≠ .at)
    (h : item.Holds tokens here) (hrank : item.rule.Ranked) (hlt : item.origin < m) (hle : m ≤ here)
    (hopens : Opening tokens m) (hdepth : depth tokens m = depth tokens item.origin) :
    ∃ mark left, Holds tokens ⟨.exprEqual, item.origin, [mark, left]⟩ m := by
  induction h with
  | fresh rule here => exact absurd hlt (Nat.not_lt.mpr hle)
  | @scan item here token hitem hnext htoken ih =>
    rcases Nat.eq_or_lt_of_le hle with rfl | hbefore
    · obtain ⟨n, other, hn, hother, hopens⟩ := hopens.resolve_left (Nat.succ_ne_zero here)
      cases hn
      cases htoken.symm.trans hother
      rw [advance_rule] at hrank
      obtain ⟨hrule, hfound⟩ :=
        hrank.of_opens (next?_eq_some_iff.mp hnext) hopens (hat token (List.mem_of_getElem? htoken))
      obtain ⟨rule, origin, found⟩ := item
      obtain rfl : rule = .exprEqual := hrule
      obtain ⟨left, rfl⟩ := List.length_eq_one_iff.mp hfound
      exact ⟨_, _, hitem.scan hnext htoken⟩
    · exact ih hrank hlt (Nat.le_of_lt_succ hbefore) hdepth
  | @complete parent item here node hparent hnext hrule hitem hfinished hnode ihparent ih =>
    rw [advance_rule] at hrank
    rw [advance_origin] at hlt hdepth ⊢
    obtain ⟨hleft, hplace⟩ := hrank.of_category (next?_eq_some_iff.mp hnext)
    rcases Nat.lt_or_ge item.origin m with hinside | hbefore
    · have hhere : m < here := by
        rcases Nat.eq_or_lt_of_le hle with rfl | hhere
        · exact absurd hopens (hitem.not_opening hfinished (.inl hleft))
        · exact hhere
      have horigin : depth tokens m = depth tokens item.origin := by
        rw [hdepth, hparent.depth_eq, hrank.depth_eq_zero, Int.add_zero]
      by_cases hinner : item.rule.Ranked
      · obtain ⟨mark, left, hsplit⟩ := ih hinner hinside hle horigin
        rcases hplace with hnil | ⟨hequal, hfound⟩ | hnamed
        · rw [hparent.eq_fresh (List.length_eq_zero_iff.mp hnil)]
          exact ⟨mark, left, hsplit⟩
        · exact hparent.regroup hproper hequal hfound hsplit
        · obtain ⟨token, htoken, hterminal⟩ := (hparent.complete hnext hrule hitem hfinished hnode).first_terminal
            (List.cons_ne_nil _ _) (by rw [advance_rule, hnamed]; rfl)
          exact absurd hterminal (hat token (List.mem_of_getElem? htoken))
      · have := hitem.depth_lt_of_opening hfinished hleft hinner hinside hhere hopens
        omega
    · exact ihparent hrank hlt hbefore hdepth

end Holds

end Item

end DragonflyFabric.Language
