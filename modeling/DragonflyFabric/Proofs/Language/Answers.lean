import DragonflyFabric.Proofs.Language.Parsing

/-!
# What comes of a text

Rules build from parts of certain shapes and from no others. With the tokens of a text the parts always have these
shapes: each derivation has a value of the shape of its root, `Tree.Valid.exists_node`, and each finished item has a
value in each set of a chart, `Chart.exists_node_of_mem_sets`.

A text then comes to one of three things, `parseValue_cases`. It has a position that begins no lexeme, its tokens have
no derivation, or it stands for the value of one.
-/

namespace DragonflyFabric.Language

/-! ### Every rule finds what it joins -/

namespace Tree

theorem exists_nodes {parts : List Tree} (h : ∀ part ∈ parts, ∃ node, part.node? = some node ∧ part.root.Fits node) :
    ∃ nodes, nodes? parts = some nodes ∧ List.Forall₂ Symbol.Fits (parts.map root) nodes := by
  induction parts with
  | nil => exact ⟨[], rfl, .nil⟩
  | cons part rest ih =>
    obtain ⟨⟨node, hnode, hfits⟩, hrest⟩ := List.forall_mem_cons.mp h
    obtain ⟨nodes, hnodes, hall⟩ := ih hrest
    refine ⟨node :: nodes, ?_, .cons hfits hall⟩
    rw [nodes?, hnode, hnodes]
    rfl

/-- **Every derivation has a value,** of the shape that belongs to its root. -/
theorem Valid.exists_node {tree : Tree} (h : tree.Valid) :
    (∀ token ∈ tree.tokens, token.Proper) → ∃ node, tree.node? = some node ∧ tree.root.Fits node := by
  induction h with
  | leaf token =>
    intro hproper
    exact ⟨.leaf token, rfl, (hproper token List.mem_cons_self).fits⟩
  | @branch rule parts hrule hroots _ ih =>
    intro hproper
    rw [tokens, tokensOf_eq_flatMap, List.forall_mem_flatMap] at hproper
    obtain ⟨nodes, hnodes, hfits⟩ := exists_nodes fun part hpart => ih part hpart (hproper part hpart)
    rw [hroots] at hfits
    obtain ⟨node, hnode, hfits⟩ := rule.exists_build hfits
    refine ⟨node, ?_, hfits⟩
    rw [node?, hnodes]
    exact hnode

end Tree

/-! ### The sets of a chart -/

namespace Chart

variable {tokens : List Token} {goal : Category} {done : Array (Array Item)} {start : Array Item}

/-- The sets of a chart from the one that is still to be walked on, each as it is when it has been walked. -/
def sets (done : Array (Array Item)) (kept : Nat) (set : Array Item) : List Token → List (Array Item)
  | [] => [(grow done none (room kept set) 0 set #[]).1]
  | token :: rest =>
    let (set', following) := grow done (some token) (room kept set) 0 set #[]
    set' :: sets (done.push set') (kept + set'.size) following rest

theorem sound_of_mem_sets (hproper : ∀ token ∈ tokens, token.Proper) (rest : List Token) : ∀ {done start},
    Charted tokens goal done start → rest = tokens.drop done.size → ∀ set ∈ sets done
      (done.toList.map Array.size).sum start rest, ∀ item ∈ set.toList, ∃ here, item.Sound tokens goal here := by
  induction rest with
  | nil =>
    intro done start hc hrest set hset item hitem
    have hnone : none = tokens[done.size]? := by
      rw [← List.head?_drop, ← hrest]
      rfl
    obtain ⟨walked, following, rules, kept, hgrow, w⟩ := hc.exists_walk hnone
    rw [sets, hgrow, List.mem_singleton] at hset
    subst hset
    exact ⟨done.size, w.sound item hitem⟩
  | cons token rest ih =>
    intro done start hc hrest set hset item hitem
    have htoken : tokens[done.size]? = some token := by
      rw [← List.head?_drop, ← hrest]
      rfl
    obtain ⟨walked, following, rules, kept, hgrow, w⟩ := hc.exists_walk htoken.symm
    rw [sets, hgrow] at hset
    rcases List.mem_cons.mp hset with rfl | hset
    · exact ⟨done.size, w.sound item hitem⟩
    · have hrest' : rest = tokens.drop (done.push walked).size := by
        rw [Array.size_push, ← List.tail_drop, ← hrest]
        rfl
      refine ih (hc.next hproper w) hrest' set ?_ item hitem
      rw [Array.toList_push, List.map_append, List.sum_append]
      simpa using hset

/-- **Every finished item of every set has a value.** -/
theorem exists_node_of_mem_sets (hproper : ∀ token ∈ tokens, token.Proper) (goal : Category) :
    ∀ set ∈ sets #[] 0 #[.fresh (.whole goal) 0] tokens, ∀ item ∈ set.toList, item.isFinished →
      ∃ node, item.node? = some node := by
  intro set hset item hitem hfinished
  obtain ⟨here, hsound⟩ := sound_of_mem_sets hproper tokens (charted_begin tokens goal) rfl set hset item hitem
  exact hsound.holds.exists_node hproper hfinished

end Chart

/-! ### What comes of a text -/

/-- Some position of the text is reached that begins no lexeme. -/
def Stuck (text : String) : Prop := ∃ rest, Lexer.Reaches text.toList rest ∧ rest ≠ [] ∧ Lexer.lexeme? rest = none

/-- The text has tokens, but they have no derivation. -/
def Foreign (text : String) : Prop :=
  ∃ tokens, Lexer.Lexes text.toList tokens ∧ ¬ ∃ tree : Tree, tree.Derives .value tokens

/-- The value is that of a derivation of the tokens of the text. -/
def Stands (text : String) (v : Value) : Prop :=
  ∃ tokens, ∃ tree : Tree, Lexer.Lexes text.toList tokens ∧ tree.Derives .value tokens ∧ tree.node? = some (.value v)

theorem parseValue_cases (text : String) : (Stuck text ∧ parseValue text = .error .noTokens) ∨
    (Foreign text ∧ parseValue text = .error .notInGrammar) ∨ ∃ v, Stands text v ∧ parseValue text = .ok v := by
  cases htokens : Lexer.tokens? text.toList with
  | none =>
    refine .inl ⟨Lexer.tokens?_eq_none_iff.mp htokens, ?_⟩
    rw [parseValue, parse, htokens]
  | some tokens =>
    have hlexes := Lexer.tokens?_eq_some_iff.mp htokens
    have hproper := Lexer.proper_of_tokens? htokens
    have hparse : parse .value text = parseTokens .value tokens := by rw [parse, htokens]
    rcases parseTokens_cases hproper .value with ⟨h, hnone⟩ | ⟨node, tree, h, htree, hnode⟩ | ⟨-, hgoal, -⟩
    · refine .inr (.inl ⟨⟨tokens, hlexes, hnone⟩, ?_⟩)
      rw [parseValue, hparse, h]
    · obtain ⟨node', hnode', hfits⟩ := htree.valid.exists_node (by rwa [htree.tokens_eq])
      cases hnode.symm.trans hnode'
      rw [htree.root_eq] at hfits
      obtain ⟨v, rfl⟩ := hfits
      refine .inr (.inr ⟨v, ⟨tokens, tree, hlexes, htree, hnode⟩, ?_⟩)
      rw [parseValue, hparse, h]
    · cases hgoal

end DragonflyFabric.Language
