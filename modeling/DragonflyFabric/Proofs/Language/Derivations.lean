import DragonflyFabric.Language.Chart
import DragonflyFabric.Proofs.Language.Lexing
import Mathlib.Data.List.Forall2

/-!
# Derivations

A list of tokens is a phrase of a category if there is a tree of rules over it. A tree has a value where every
rule in it finds parts of the shape that it joins, and this is always so where tokens carry what they should:
`Item.Holds.exists_node`.

What holds of an item of a chart can be said without any chart: `Item.Holds` has one constructor for each way in
which an item comes about, a rule that begins, a token that is taken and a phrase that is completed. It is the
same as a tree that has been built up to some symbol: `Item.Holds.exists_parts` reads off the trees, and
`Tree.Derives.holds` builds the item for the whole text.
-/

namespace DragonflyFabric.Language

/-- A derivation: a token alone, or a rule with a derivation for each symbol that it joins. -/
inductive Tree
  | leaf (token : Token)
  | branch (rule : Rule) (parts : List Tree)

namespace Tree

/-- The symbol that is derived. -/
def root : Tree → Symbol
  | leaf token => .terminal token.terminal
  | branch rule _ => .category rule.left

mutual

/-- The tokens, from left to right. -/
def tokens : Tree → List Token
  | leaf token => [token]
  | branch _ parts => tokensOf parts

def tokensOf : List Tree → List Token
  | [] => []
  | part :: rest => tokens part ++ tokensOf rest

end

mutual

/-- What the tree stands for, each rule building from what its parts stand for. -/
def node? : Tree → Option Node
  | leaf token => some (.leaf token)
  | branch rule parts => (nodes? parts).bind rule.build

def nodes? : List Tree → Option (List Node)
  | [] => some []
  | part :: rest => do
    let node ← node? part
    let nodes ← nodes? rest
    return node :: nodes

end

/-- Every rule joins what the grammar says it joins. The rule for the whole text is no part of a tree. -/
inductive Valid : Tree → Prop
  | leaf (token : Token) : Valid (.leaf token)
  | branch {rule : Rule} {parts : List Tree} : rule ∈ rule.left.rules → parts.map root = rule.right →
    (∀ part ∈ parts, Valid part) → Valid (.branch rule parts)

/-- The tree derives a list of tokens from a category. -/
structure Derives (tree : Tree) (goal : Category) (tokens : List Token) : Prop where
  valid : tree.Valid
  root_eq : tree.root = .category goal
  tokens_eq : tree.tokens = tokens

theorem tokensOf_append (parts rest : List Tree) : tokensOf (parts ++ rest) = tokensOf parts ++ tokensOf rest := by
  induction parts with
  | nil => rfl
  | cons part parts ih => simp only [List.cons_append, tokensOf, ih, List.append_assoc]

theorem tokensOf_eq_flatMap (parts : List Tree) : tokensOf parts = parts.flatMap tokens := by
  induction parts with
  | nil => rfl
  | cons part rest ih => rw [tokensOf, List.flatMap_cons, ih]

theorem nodes?_append {parts rest : List Tree} {nodes more : List Node} (h : nodes? parts = some nodes)
    (hrest : nodes? rest = some more) : nodes? (parts ++ rest) = some (nodes ++ more) := by
  induction parts generalizing nodes with
  | nil =>
    cases h
    exact hrest
  | cons part parts ih =>
    rw [nodes?] at h
    obtain ⟨node, hnode, h⟩ := Option.bind_eq_some_iff.mp h
    obtain ⟨found, hfound, h⟩ := Option.bind_eq_some_iff.mp h
    cases h
    rw [List.cons_append, nodes?, hnode, ih hfound]
    rfl

end Tree

/-! ### Proper tokens -/

/-- A token of a kind that has contents carries them. -/
def Token.Proper : Token → Prop
  | .mark terminal => terminal ≠ .number ∧ terminal ≠ .literal ∧ terminal ≠ .ident
  | _ => True

namespace Lexer

theorem proper_of_mark? {cs rest : List Char} {t : Terminal} (h : mark? cs = some (t, rest)) : (Token.mark t).Proper := by
  unfold mark? at h
  split at h
  all_goals cases h
  all_goals simp [Token.Proper]

theorem proper_of_lexeme? {cs rest : List Char} {token : Token} (h : lexeme? cs = some (some token, rest)) :
    token.Proper := by
  revert h
  refine forall_of_orElse ?_ (forall_of_orElse ?_ (forall_of_orElse ?_ (forall_of_orElse ?_
    (forall_of_orElse ?_ (forall_of_orElse ?_ (forall_of_orElse ?_ ?_))))))
  all_goals
    intro h
    obtain ⟨lexeme, hlexeme, heq⟩ := Option.map_eq_some_iff.mp h
    cases heq
  case refine_7 => exact proper_of_mark? hlexeme
  all_goals simp [Token.Proper]

/-- The tokens of a text are proper. -/
theorem proper_of_tokens? {cs : List Char} {tokens : List Token} (h : tokens? cs = some tokens) :
    ∀ token ∈ tokens, token.Proper := by
  have hlexes := tokens?_eq_some_iff.mp h
  clear h
  induction hlexes with
  | nil => exact List.forall_mem_nil _
  | cons hlexeme _ ih =>
    refine List.forall_mem_append.mpr ⟨fun first hfirst => ?_, ih⟩
    obtain rfl := Option.mem_toList.mp hfirst
    exact proper_of_lexeme? hlexeme

end Lexer

/-! ### What nodes look like -/

/-- What can stand for a symbol: a proper token, or a node of the shape that belongs to the category. -/
def Symbol.Fits : Symbol → Node → Prop
  | .terminal .number, node => ∃ x, node = .leaf (.number x)
  | .terminal .literal, node => ∃ s, node = .leaf (.literal s)
  | .terminal .ident, node => ∃ name, node = .leaf (.ident name)
  | .terminal t, node => node = .leaf (.mark t)
  | .category .text, _ => True
  | .category .value, node => ∃ v, node = .value v
  | .category .object, node => ∃ v, node = .object v
  | .category .members, node => ∃ fields, node = .members fields
  | .category .pair, node => ∃ key v, node = .pair key v
  | .category .array, node => ∃ items, node = .array items
  | .category .elements, node => ∃ items, node = .elements items
  | .category .expression, node => ∃ e, node = .expression e
  | .category .call, node => ∃ e, node = .call e
  | .category .arguments, node => ∃ args, node = .arguments args
  | .category .argument, node => ∃ key e, node = .argument key e

theorem Token.Proper.fits {token : Token} (h : token.Proper) :
    (Symbol.terminal token.terminal).Fits (.leaf token) := by
  cases token with
  | mark t => cases t <;> simp_all [Proper, Symbol.Fits, terminal]
  | number x => exact ⟨x, rfl⟩
  | literal s => exact ⟨s, rfl⟩
  | ident name => exact ⟨name, rfl⟩

/-- From what stands for its symbols, a rule builds what stands for its category. -/
theorem Rule.exists_build (rule : Rule) {nodes : List Node} (h : List.Forall₂ Symbol.Fits rule.right nodes) :
    ∃ node, rule.build nodes = some node ∧ (Symbol.category rule.left).Fits node := by
  cases rule
  all_goals
    simp only [right, List.forall₂_cons_left_iff, List.forall₂_nil_left_iff, Symbol.Fits] at h
    revert h
    simp only [forall_exists_index, and_imp]
    intros
    subst_vars
    exact ⟨_, rfl, by simp [left, Symbol.Fits]⟩

/-- The rules of a category make phrases of it. -/
theorem Category.left_of_mem {rule : Rule} {c : Category} (h : rule ∈ c.rules) : rule.left = c := by
  have hall : ∀ rule ∈ c.rules, rule.left = c := by cases c <;> decide
  exact hall rule h

/-- No rule joins nothing. -/
theorem Rule.right_pos (rule : Rule) : 0 < rule.right.length := by cases rule <;> simp [right]

/-! ### Items that hold -/

namespace Item

/-- What an item says, said without a chart: that its rule has found what it has between its origin and here. -/
inductive Holds (tokens : List Token) : Item → Nat → Prop
  /-- A rule that begins has found nothing. -/
  | fresh (rule : Rule) (here : Nat) : Holds tokens (fresh rule here) here
  /-- A token is taken. -/
  | scan {item : Item} {here : Nat} {token : Token} : Holds tokens item here →
    item.next? = some (.terminal token.terminal) → tokens[here]? = some token →
    Holds tokens (item.advance (.leaf token)) (here + 1)
  /-- A phrase is completed. -/
  | complete {parent item : Item} {here : Nat} {node : Node} : Holds tokens parent item.origin →
    parent.next? = some (.category item.rule.left) → item.rule ∈ item.rule.left.rules → Holds tokens item here →
    item.isFinished → item.node? = some node → Holds tokens (parent.advance node) here

variable {tokens : List Token} {item : Item} {here m : Nat}

theorem next?_eq_some_iff {s : Symbol} : item.next? = some s ↔ item.rule.right[item.found.length]? = some s := Iff.rfl

theorem isFinished_iff : item.isFinished = true ↔ item.rule.right.length ≤ item.found.length := by
  rw [isFinished, next?, Option.isNone_iff_eq_none, List.getElem?_eq_none_iff]

@[simp]
theorem advance_rule (item : Item) (node : Node) : (item.advance node).rule = item.rule := rfl

@[simp]
theorem advance_origin (item : Item) (node : Node) : (item.advance node).origin = item.origin := rfl

@[simp]
theorem advance_found (item : Item) (node : Node) : (item.advance node).found = node :: item.found := rfl

/-- One more symbol is found. -/
theorem take_advance {s : Symbol} (h : item.next? = some s) (node : Node) :
    (item.advance node).rule.right.take (item.advance node).found.length =
      item.rule.right.take item.found.length ++ [s] := by
  rw [advance_rule, advance_found, List.length_cons, List.take_add_one, next?_eq_some_iff.mp h]
  rfl

namespace Holds

theorem found_le (h : item.Holds tokens here) : item.found.length ≤ item.rule.right.length := by
  cases h with
  | fresh rule here => exact Nat.zero_le _
  | scan _ hnext _ =>
    obtain ⟨hlt, -⟩ := List.getElem?_eq_some_iff.mp hnext
    exact hlt
  | complete _ hnext _ _ _ _ =>
    obtain ⟨hlt, -⟩ := List.getElem?_eq_some_iff.mp hnext
    exact hlt

/-- A finished item has found all symbols of its rule. -/
theorem found_eq (h : item.Holds tokens here) (hfinished : item.isFinished) :
    item.found.length = item.rule.right.length :=
  Nat.le_antisymm h.found_le (isFinished_iff.mp hfinished)

theorem found_ne_nil (h : item.Holds tokens here) (hfinished : item.isFinished) : item.found ≠ [] := by
  have := h.found_eq hfinished
  have := item.rule.right_pos
  exact List.ne_nil_of_length_pos (by omega)

/-- What has been found has tokens. -/
theorem origin_lt_or_fresh (h : item.Holds tokens here) :
    (item.found = [] ∧ item.origin = here) ∨ (item.found ≠ [] ∧ item.origin < here) := by
  induction h with
  | fresh rule here => exact .inl ⟨rfl, rfl⟩
  | @scan item here _ _ _ _ ih =>
    have hle : item.origin ≤ here := ih.elim (fun h => Nat.le_of_eq h.2) fun h => Nat.le_of_lt h.2
    exact .inr ⟨List.cons_ne_nil _ _, Nat.lt_succ_of_le hle⟩
  | @complete parent item here _ _ _ _ hitem hfinished _ ihparent ih =>
    have hle : parent.origin ≤ item.origin := ihparent.elim (fun h => Nat.le_of_eq h.2) fun h => Nat.le_of_lt h.2
    have hlt : item.origin < here := ih.elim (fun h => absurd h.1 (hitem.found_ne_nil hfinished)) fun h => h.2
    exact .inr ⟨List.cons_ne_nil _ _, Nat.lt_of_le_of_lt hle hlt⟩

theorem origin_le (h : item.Holds tokens here) : item.origin ≤ here :=
  h.origin_lt_or_fresh.elim (fun h => Nat.le_of_eq h.2) fun h => Nat.le_of_lt h.2

theorem origin_lt (h : item.Holds tokens here) (hfound : item.found ≠ []) : item.origin < here :=
  h.origin_lt_or_fresh.elim (fun h => absurd h.1 hfound) fun h => h.2

theorem eq_fresh (h : item.Holds tokens here) (hfound : item.found = []) : item = .fresh item.rule here := by
  have horigin : item.origin = here := h.origin_lt_or_fresh.elim (fun h => h.2) fun h => absurd hfound h.1
  rw [Item.fresh, ← horigin, ← hfound]

/-! ### The ways in which an item came about -/

/-- The token that was taken last. -/
theorem of_terminal {node : Node} {found : List Node} {t : Terminal} (h : item.Holds tokens here)
    (hfound : item.found = node :: found) (hright : item.rule.right[found.length]? = some (.terminal t)) :
    ∃ m token, here = m + 1 ∧ Holds tokens ⟨item.rule, item.origin, found⟩ m ∧ tokens[m]? = some token ∧
      token.terminal = t := by
  cases h with
  | fresh rule here => cases hfound
  | @scan parent m token hparent hnext htoken =>
    cases hfound
    rw [next?_eq_some_iff, ← advance_rule parent (.leaf token), hright] at hnext
    cases hnext
    exact ⟨m, token, rfl, hparent, htoken, rfl⟩
  | complete _ hnext _ _ _ _ =>
    cases hfound
    rw [next?_eq_some_iff] at hnext
    cases hright.symm.trans hnext

/-- The phrase that was completed last. -/
theorem of_category {node : Node} {found : List Node} {c : Category} (h : item.Holds tokens here)
    (hfound : item.found = node :: found) (hright : item.rule.right[found.length]? = some (.category c)) :
    ∃ inner : Item, Holds tokens ⟨item.rule, item.origin, found⟩ inner.origin ∧ inner.rule ∈ c.rules ∧
      inner.Holds tokens here ∧ inner.isFinished ∧ inner.node? = some node := by
  cases h with
  | fresh rule here => cases hfound
  | scan _ hnext _ =>
    cases hfound
    rw [next?_eq_some_iff] at hnext
    cases hright.symm.trans hnext
  | @complete parent inner _ node hparent hnext hrule hinner hfinished hnode =>
    cases hfound
    rw [next?_eq_some_iff] at hnext
    cases hright.symm.trans hnext
    exact ⟨inner, hparent, hrule, hinner, hfinished, hnode⟩

/-- The token that comes first. -/
theorem first_terminal {t : Terminal} (h : item.Holds tokens here) (hfound : item.found ≠ [])
    (hright : item.rule.right[0]? = some (.terminal t)) :
    ∃ token, tokens[item.origin]? = some token ∧ token.terminal = t := by
  induction h with
  | fresh rule here => exact absurd rfl hfound
  | @scan item here token hitem hnext htoken ih =>
    by_cases hnil : item.found = []
    · rw [next?_eq_some_iff, hnil] at hnext
      rw [hitem.eq_fresh hnil]
      cases hright.symm.trans hnext
      exact ⟨token, htoken, rfl⟩
    · exact ih hnil hright
  | @complete parent item here node _ hnext _ _ _ _ ihparent _ =>
    refine ihparent (fun hnil => ?_) hright
    rw [next?_eq_some_iff, hnil] at hnext
    cases hright.symm.trans hnext

/-! ### Values and trees of items -/

/-- What was found fits the symbols of the rule. -/
theorem fits (hproper : ∀ token ∈ tokens, token.Proper) (h : item.Holds tokens here) :
    List.Forall₂ Symbol.Fits (item.rule.right.take item.found.length) item.found.reverse := by
  induction h with
  | fresh rule here => exact .nil
  | @scan item here token _ hnext htoken ih =>
    rw [take_advance hnext, advance_found, List.reverse_cons]
    exact List.rel_append ih (.cons (hproper token (List.mem_of_getElem? htoken)).fits .nil)
  | @complete parent item here node _ hnext _ hitem hfinished hnode ihparent ih =>
    rw [take_advance hnext, advance_found, List.reverse_cons]
    refine List.rel_append ihparent (.cons ?_ .nil)
    rw [hitem.found_eq hfinished, List.take_length] at ih
    obtain ⟨node', hnode', hfits⟩ := item.rule.exists_build ih
    cases hnode.symm.trans hnode'
    exact hfits

theorem fits_of_isFinished (hproper : ∀ token ∈ tokens, token.Proper) (h : item.Holds tokens here)
    (hfinished : item.isFinished) : List.Forall₂ Symbol.Fits item.rule.right item.found.reverse := by
  have hfits := h.fits hproper
  rwa [h.found_eq hfinished, List.take_length] at hfits

/-- **A finished item has a value.** -/
theorem exists_node (hproper : ∀ token ∈ tokens, token.Proper) (h : item.Holds tokens here)
    (hfinished : item.isFinished) : ∃ node, item.node? = some node := by
  obtain ⟨node, hnode, -⟩ := item.rule.exists_build (h.fits_of_isFinished hproper hfinished)
  exact ⟨node, hnode⟩

/-- **An item that holds is a tree that has been built up to some symbol.** -/
theorem exists_parts (h : item.Holds tokens here) : ∃ parts : List Tree, (∀ part ∈ parts, part.Valid) ∧
    parts.map Tree.root = item.rule.right.take item.found.length ∧ Tree.nodes? parts = some item.found.reverse ∧
    tokens.take here = tokens.take item.origin ++ Tree.tokensOf parts := by
  induction h with
  | fresh rule here => exact ⟨[], by simp, rfl, rfl, by simp [Item.fresh, Tree.tokensOf]⟩
  | @scan item here token _ hnext htoken ih =>
    obtain ⟨parts, hvalid, hroots, hnodes, htokens⟩ := ih
    refine ⟨parts ++ [.leaf token], ?_, ?_, ?_, ?_⟩
    · rintro part hpart
      rcases List.mem_append.mp hpart with hpart | hpart
      · exact hvalid part hpart
      · cases List.mem_singleton.mp hpart
        exact .leaf token
    · rw [take_advance hnext, List.map_append, hroots]
      rfl
    · rw [advance_found, List.reverse_cons]
      exact Tree.nodes?_append hnodes rfl
    · rw [List.take_add_one, htoken, htokens, Tree.tokensOf_append, List.append_assoc]
      rfl
  | @complete parent item here node _ hnext hrule hitem hfinished hnode ihparent ih =>
    obtain ⟨parts, hvalid, hroots, hnodes, htokens⟩ := ihparent
    obtain ⟨inner, hinner, hinnerRoots, hinnerNodes, hinnerTokens⟩ := ih
    rw [hitem.found_eq hfinished, List.take_length] at hinnerRoots
    refine ⟨parts ++ [.branch item.rule inner], ?_, ?_, ?_, ?_⟩
    · rintro part hpart
      rcases List.mem_append.mp hpart with hpart | hpart
      · exact hvalid part hpart
      · cases List.mem_singleton.mp hpart
        exact .branch hrule hinnerRoots hinner
    · rw [take_advance hnext, List.map_append, hroots]
      rfl
    · rw [advance_found, List.reverse_cons]
      refine Tree.nodes?_append hnodes ?_
      have : Tree.node? (.branch item.rule inner) = some node := by
        rw [Tree.node?, hinnerNodes]
        exact hnode
      simp [Tree.nodes?, this]
    · rw [hinnerTokens, htokens, Tree.tokensOf_append, advance_origin, List.append_assoc]
      simp [Tree.tokensOf, Tree.tokens]

end Holds

end Item

namespace Tree

open Item (Holds)

variable {tokens : List Token} {tree : Tree} {parent item : Item} {here : Nat}

/-- A tree can be added wherever its root is expected and its tokens follow. -/
def Adds (tokens : List Token) (tree : Tree) : Prop :=
  ∀ ⦃parent : Item⦄ ⦃here : Nat⦄, parent.Holds tokens here → parent.next? = some tree.root →
    tree.tokens <+: tokens.drop here → ∃ node, (parent.advance node).Holds tokens (here + tree.tokens.length)

/-- An item is finished by adding what is missing, part by part. -/
theorem exists_finished {parts : List Tree} (hadds : ∀ part ∈ parts, part.Adds tokens)
    (hitem : item.Holds tokens here) (hroots : item.rule.right.drop item.found.length = parts.map root)
    (htokens : tokensOf parts <+: tokens.drop here) :
    ∃ done : Item, done.rule = item.rule ∧ done.origin = item.origin ∧ done.isFinished ∧
      done.Holds tokens (here + (tokensOf parts).length) := by
  induction parts generalizing item here with
  | nil => exact ⟨item, rfl, rfl, Item.isFinished_iff.mpr (List.drop_eq_nil_iff.mp hroots), hitem⟩
  | cons part rest ih =>
    obtain ⟨behind, hbehind⟩ := htokens
    rw [tokensOf, List.append_assoc] at hbehind
    have hnext : item.next? = some part.root := by
      rw [Item.next?_eq_some_iff, ← List.head?_drop, hroots]
      rfl
    obtain ⟨node, hnode⟩ := hadds part List.mem_cons_self hitem hnext ⟨_, hbehind⟩
    have hdrop : (item.advance node).rule.right.drop (item.advance node).found.length = rest.map root := by
      rw [Item.advance_rule, Item.advance_found, List.length_cons, ← List.tail_drop, hroots]
      rfl
    have hrest : tokensOf rest <+: tokens.drop (here + part.tokens.length) :=
      ⟨behind, by rw [← List.drop_drop, ← hbehind, List.drop_left]⟩
    obtain ⟨done, hrule, horigin, hfinished, hholds⟩ :=
      ih (fun part hpart => hadds part (List.mem_cons_of_mem _ hpart)) hnode hdrop hrest
    refine ⟨done, hrule, horigin, hfinished, ?_⟩
    rw [tokensOf, List.length_append, ← Nat.add_assoc]
    exact hholds

theorem Valid.adds (hproper : ∀ token ∈ tokens, token.Proper) (h : tree.Valid) : tree.Adds tokens := by
  induction h with
  | leaf token =>
    intro parent here hparent hnext htokens
    obtain ⟨behind, hbehind⟩ := htokens
    have htoken : tokens[here]? = some token := by
      rw [← List.head?_drop, ← hbehind]
      rfl
    exact ⟨_, hparent.scan hnext htoken⟩
  | @branch rule parts hrule hroots _ ih =>
    intro parent here hparent hnext htokens
    rw [Tree.tokens] at htokens ⊢
    have hfresh : (Item.fresh rule here).Holds tokens here := .fresh rule here
    obtain ⟨done, hdone, horigin, hfinished, hholds⟩ :=
      exists_finished (fun part hpart => ih part hpart) hfresh hroots.symm htokens
    obtain ⟨node, hnode⟩ := hholds.exists_node hproper hfinished
    subst hdone
    cases horigin
    exact ⟨node, .complete hparent hnext hrule hholds hfinished hnode⟩

/-- **A list of tokens has a derivation if the rule for the whole text can be built up.** -/
theorem Derives.holds {goal : Category} (hproper : ∀ token ∈ tokens, token.Proper) (h : tree.Derives goal tokens) :
    ∃ node, ((Item.fresh (.whole goal) 0).advance node).Holds tokens tokens.length := by
  have hadds := h.valid.adds hproper
  have hnext : (Item.fresh (.whole goal) 0).next? = some tree.root := by
    rw [h.root_eq]
    rfl
  have hprefix : tree.tokens <+: tokens.drop 0 := ⟨[], by rw [h.tokens_eq, List.append_nil, List.drop_zero]⟩
  obtain ⟨node, hnode⟩ := hadds (.fresh (.whole goal) 0) hnext hprefix
  rw [h.tokens_eq, Nat.zero_add] at hnode
  exact ⟨node, hnode⟩

theorem exists_derives {goal : Category} {node : Node}
    (h : ((Item.fresh (.whole goal) 0).advance node).Holds tokens tokens.length) :
    ∃ tree : Tree, tree.Derives goal tokens ∧ tree.node? = some node := by
  obtain ⟨parts, hvalid, hroots, hnodes, htokens⟩ := h.exists_parts
  rw [List.take_length] at htokens
  obtain ⟨tree, rfl, hroot⟩ := List.map_eq_singleton_iff.mp hroots
  obtain ⟨found, hfound, hnil⟩ := Option.bind_eq_some_iff.mp hnodes
  cases hnil
  refine ⟨tree, ⟨hvalid tree List.mem_cons_self, hroot, ?_⟩, hfound⟩
  rw [htokens, tokensOf, tokensOf, List.append_nil]
  rfl

end Tree

end DragonflyFabric.Language
