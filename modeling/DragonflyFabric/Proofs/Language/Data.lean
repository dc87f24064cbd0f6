import DragonflyFabric.Proofs.Language.Parsing
import DragonflyFabric.Proofs.Language.Writing

/-!
# Data is read as it was written

Every derivation of tokens that hold no condition and no expression is of written data, rule by rule:
`Tree.Valid.tells`. On the other hand written data can be derived: `Writes.exists_derives`. What is written tells the
value, so that all derivations have the same one, `Writes.node_eq`, and the parser answers one of them: only of
expressions it may find several readings. So it answers the data that was written: `parseTokens_written`.
-/

namespace DragonflyFabric.Language

/-! ### Derivations of written data -/

/-- A token that can stand in written data: a proper one, of no condition and no expression. -/
def Token.Plain (token : Token) : Prop :=
  token.Proper ∧ token.terminal ≠ .whereWord ∧ token.terminal ≠ .equal

/-- Entries with commas between them, so that a list ends here and can go on. -/
structure Joined {α : Type} (write : α → List Token) (entries : List α) (tokens : List Token) : Prop where
  listed : Listed write entries tokens
  append : ∀ {more : List α} {rest : List Token}, Listed write more rest →
    Listed write (entries ++ more) (tokens ++ .mark .comma :: rest)

namespace Joined

variable {α : Type} {write : α → List Token} {entries : List α} {tokens : List Token}

theorem one (write : α → List Token) (entry : α) : Joined write [entry] (write entry) :=
  ⟨.last entry, fun h => .cons entry h⟩

theorem more (h : Joined write entries tokens) (entry : α) :
    Joined write (entries ++ [entry]) (tokens ++ .mark .comma :: write entry) where
  listed := h.append (.last entry)
  append := by
    intro more rest hmore
    rw [List.append_assoc, List.append_assoc]
    exact h.append (.cons entry hmore)

theorem trailing (h : Joined write entries tokens) : Listed write entries (tokens ++ [.mark .comma]) := by
  have := h.append .nil
  rwa [List.append_nil] at this

end Joined

/-- What a phrase of data stands for, and how it is written. Of expressions nothing is said. -/
def Symbol.Tells : Symbol → Node → List Token → Prop
  | .terminal .whereWord, _, _ | .terminal .equal, _, _ => False
  | .terminal .number, node, text => ∃ x, node = .leaf (.number x) ∧ text = [.number x]
  | .terminal .literal, node, text => ∃ s, node = .leaf (.literal s) ∧ text = [.literal s]
  | .terminal .ident, node, text => ∃ name, node = .leaf (.ident name) ∧ text = [.ident name]
  | .terminal t, node, text => node = .leaf (.mark t) ∧ text = [.mark t]
  | .category .value, node, text => ∃ v, node = .value v ∧ Writes v text
  | .category .object, node, text => ∃ v, node = .object v ∧ Writes v text
  | .category .members, node, text => ∃ fields : List ((String × Value) × List Token),
    node = .members (fields.map Prod.fst).reverse ∧ (∀ field ∈ fields, Writes field.1.2 field.2) ∧
      Joined fieldText fields text
  | .category .pair, node, text => ∃ field : (String × Value) × List Token,
    node = .pair field.1.1 field.1.2 ∧ Writes field.1.2 field.2 ∧ text = fieldText field
  | .category .array, node, text => ∃ items, node = .array items ∧ Writes (.array items) text
  | .category .elements, node, text => ∃ items : List (Value × List Token),
    node = .elements (items.map Prod.fst).reverse ∧ (∀ item ∈ items, Writes item.1 item.2) ∧
      Joined Prod.snd items text
  | .category _, _, _ => True

/-- The phrases for some symbols, one after another. -/
inductive TellsAll : List Symbol → List Node → List Token → Prop
  | nil : TellsAll [] [] []
  | cons {s : Symbol} {node : Node} {text : List Token} {symbols : List Symbol} {nodes : List Node}
    {rest : List Token} : s.Tells node text → TellsAll symbols nodes rest →
    TellsAll (s :: symbols) (node :: nodes) (text ++ rest)

/-- A rule builds from phrases of data a phrase of data. The rules for conditions and expressions have a symbol that
stands for nothing here. -/
theorem Rule.tells {rule : Rule} {nodes : List Node} {tokens : List Token} (h : TellsAll rule.right nodes tokens)
    {node : Node} (hbuild : rule.build nodes = some node) : (Symbol.category rule.left).Tells node tokens := by
  cases rule with
  | valueLiteral =>
    obtain - | ⟨⟨s, rfl, rfl⟩, - | -⟩ := h
    cases hbuild
    exact ⟨_, rfl, .literal s⟩
  | valueNumber =>
    obtain - | ⟨⟨x, rfl, rfl⟩, - | -⟩ := h
    cases hbuild
    exact ⟨_, rfl, .number x⟩
  | valueTrue =>
    obtain - | ⟨⟨rfl, rfl⟩, - | -⟩ := h
    cases hbuild
    exact ⟨_, rfl, .trueWord⟩
  | valueFalse =>
    obtain - | ⟨⟨rfl, rfl⟩, - | -⟩ := h
    cases hbuild
    exact ⟨_, rfl, .falseWord⟩
  | valueObject =>
    obtain - | ⟨⟨v, rfl, hv⟩, - | -⟩ := h
    cases hbuild
    rw [List.append_nil]
    exact ⟨v, rfl, hv⟩
  | valueArray =>
    obtain - | ⟨⟨items, rfl, hitems⟩, - | -⟩ := h
    cases hbuild
    rw [List.append_nil]
    exact ⟨_, rfl, hitems⟩
  | valueExperiments =>
    obtain - | ⟨⟨rfl, rfl⟩, - | ⟨⟨items, rfl, hitems⟩, - | -⟩⟩ := h
    cases hbuild
    rw [List.append_nil]
    exact ⟨_, rfl, .experiments hitems⟩
  | valueNamedExperiments =>
    obtain - | ⟨⟨name, rfl, rfl⟩, - | ⟨⟨rfl, rfl⟩, - | ⟨⟨items, rfl, hitems⟩, - | -⟩⟩⟩ := h
    cases hbuild
    rw [List.append_nil]
    exact ⟨_, rfl, .namedExperiments name hitems⟩
  | valueGuarded =>
    obtain - | ⟨-, - | ⟨⟨⟩, -⟩⟩ := h
  | valueExpression =>
    obtain - | ⟨⟨⟩, -⟩ := h
  | objectBare =>
    obtain - | ⟨⟨name, rfl, rfl⟩, - | -⟩ := h
    cases hbuild
    exact ⟨_, rfl, .bare name⟩
  | objectEmpty =>
    obtain - | ⟨⟨name, rfl, rfl⟩, - | ⟨⟨rfl, rfl⟩, - | ⟨⟨rfl, rfl⟩, - | -⟩⟩⟩ := h
    cases hbuild
    exact ⟨_, rfl, @Writes.object name [] [] (by simp) .nil⟩
  | objectFull =>
    obtain - | ⟨⟨name, rfl, rfl⟩, - | ⟨⟨rfl, rfl⟩, - | ⟨⟨fields, rfl, hfields, hjoined⟩, - |
      ⟨⟨rfl, rfl⟩, - | -⟩⟩⟩⟩ := h
    cases hbuild
    rw [List.reverse_reverse]
    exact ⟨_, rfl, .object name hfields hjoined.listed⟩
  | objectTrailing =>
    obtain - | ⟨⟨name, rfl, rfl⟩, - | ⟨⟨rfl, rfl⟩, - | ⟨⟨fields, rfl, hfields, hjoined⟩, - |
      ⟨⟨rfl, rfl⟩, - | ⟨⟨rfl, rfl⟩, - | -⟩⟩⟩⟩⟩ := h
    cases hbuild
    rw [List.reverse_reverse]
    have := Writes.object name hfields hjoined.trailing
    rw [List.append_assoc] at this
    exact ⟨_, rfl, this⟩
  | membersOne =>
    obtain - | ⟨⟨field, rfl, hfield, rfl⟩, - | -⟩ := h
    cases hbuild
    rw [List.append_nil]
    exact ⟨[field], rfl, List.forall_mem_singleton.mpr hfield, .one fieldText field⟩
  | membersMore =>
    obtain - | ⟨⟨fields, rfl, hfields, hjoined⟩, - | ⟨⟨rfl, rfl⟩, - | ⟨⟨field, rfl, hfield, rfl⟩, - | -⟩⟩⟩ := h
    cases hbuild
    rw [List.append_nil]
    exact ⟨fields ++ [field], by simp, List.forall_mem_append.mpr ⟨hfields, List.forall_mem_singleton.mpr hfield⟩,
      hjoined.more field⟩
  | pair =>
    obtain - | ⟨⟨key, rfl, rfl⟩, - | ⟨⟨rfl, rfl⟩, - | ⟨⟨v, rfl, hv⟩, - | -⟩⟩⟩ := h
    cases hbuild
    rw [List.append_nil]
    exact ⟨((key, v), _), rfl, hv, rfl⟩
  | arrayEmpty =>
    obtain - | ⟨⟨rfl, rfl⟩, - | ⟨⟨rfl, rfl⟩, - | -⟩⟩ := h
    cases hbuild
    exact ⟨_, rfl, @Writes.array [] [] (by simp) .nil⟩
  | arrayFull =>
    obtain - | ⟨⟨rfl, rfl⟩, - | ⟨⟨items, rfl, hitems, hjoined⟩, - | ⟨⟨rfl, rfl⟩, - | -⟩⟩⟩ := h
    cases hbuild
    rw [List.reverse_reverse]
    exact ⟨_, rfl, .array hitems hjoined.listed⟩
  | arrayTrailing =>
    obtain - | ⟨⟨rfl, rfl⟩, - | ⟨⟨items, rfl, hitems, hjoined⟩, - | ⟨⟨rfl, rfl⟩, - | ⟨⟨rfl, rfl⟩, - | -⟩⟩⟩⟩ := h
    cases hbuild
    rw [List.reverse_reverse]
    have := Writes.array hitems hjoined.trailing
    rw [List.append_assoc] at this
    exact ⟨_, rfl, this⟩
  | elementsOne =>
    obtain - | ⟨⟨v, rfl, hv⟩, - | -⟩ := h
    cases hbuild
    rw [List.append_nil]
    exact ⟨[(v, _)], rfl, List.forall_mem_singleton.mpr hv, .one Prod.snd (v, _)⟩
  | elementsMore =>
    obtain - | ⟨⟨items, rfl, hitems, hjoined⟩, - | ⟨⟨rfl, rfl⟩, - | ⟨⟨v, rfl, hv⟩, - | -⟩⟩⟩ := h
    cases hbuild
    rw [List.append_nil]
    exact ⟨items ++ [(v, _)], by simp, List.forall_mem_append.mpr ⟨hitems, List.forall_mem_singleton.mpr hv⟩,
      hjoined.more (v, _)⟩
  | _ => trivial

theorem Token.Plain.tells {token : Token} (h : token.Plain) :
    (Symbol.terminal token.terminal).Tells (.leaf token) [token] := by
  obtain ⟨hproper, hwhere, hequal⟩ := h
  cases token with
  | number x => exact ⟨x, rfl, rfl⟩
  | literal s => exact ⟨s, rfl, rfl⟩
  | ident name => exact ⟨name, rfl, rfl⟩
  | mark t => cases t <;> simp_all [Proper, terminal, Symbol.Tells]

namespace Tree

theorem tellsAll {parts : List Tree}
    (h : ∀ part ∈ parts, ∀ {node}, part.node? = some node → part.root.Tells node part.tokens) {nodes : List Node}
    (hnodes : nodes? parts = some nodes) : TellsAll (parts.map root) nodes (tokensOf parts) := by
  induction parts generalizing nodes with
  | nil =>
    cases hnodes
    exact .nil
  | cons part rest ih =>
    obtain ⟨first, hfirst, hnodes⟩ := Option.bind_eq_some_iff.mp hnodes
    obtain ⟨found, hfound, hnodes⟩ := Option.bind_eq_some_iff.mp hnodes
    cases hnodes
    exact .cons (h part List.mem_cons_self hfirst) (ih (fun p hp => h p (List.mem_cons_of_mem _ hp)) hfound)

/-- **A derivation without conditions and expressions is of written data.** -/
theorem Valid.tells {tree : Tree} (h : tree.Valid) :
    (∀ token ∈ tree.tokens, token.Plain) → ∀ {node}, tree.node? = some node → tree.root.Tells node tree.tokens := by
  induction h with
  | leaf token =>
    intro hplain node hnode
    cases hnode
    exact (hplain token List.mem_cons_self).tells
  | @branch rule parts hrule hroots _ ih =>
    intro hplain node hnode
    obtain ⟨nodes, hnodes, hbuild⟩ := Option.bind_eq_some_iff.mp hnode
    rw [tokens, tokensOf_eq_flatMap, List.forall_mem_flatMap] at hplain
    have hparts := tellsAll (fun part hpart _ => ih part hpart (hplain part hpart)) hnodes
    rw [hroots] at hparts
    exact Rule.tells hparts hbuild

end Tree

/-! ### Written data can be derived -/

/-- Tokens that can be derived from symbols, one after another. -/
inductive Spans : List Symbol → List Token → Prop
  | nil : Spans [] []
  | leaf (token : Token) {symbols : List Symbol} {rest : List Token} : Spans symbols rest →
    Spans (.terminal token.terminal :: symbols) (token :: rest)
  | phrase {tree : Tree} {c : Category} {text : List Token} {symbols : List Symbol} {rest : List Token} :
    tree.Derives c text → Spans symbols rest → Spans (.category c :: symbols) (text ++ rest)

theorem Spans.exists_parts {symbols : List Symbol} {text : List Token} (h : Spans symbols text) : ∃ parts : List Tree,
    (∀ part ∈ parts, part.Valid) ∧ parts.map Tree.root = symbols ∧ Tree.tokensOf parts = text := by
  induction h with
  | nil => exact ⟨[], by simp, rfl, rfl⟩
  | leaf token _ ih =>
    obtain ⟨parts, hvalid, rfl, rfl⟩ := ih
    exact ⟨.leaf token :: parts, List.forall_mem_cons.mpr ⟨.leaf token, hvalid⟩, rfl, rfl⟩
  | @phrase tree c text symbols rest htree _ ih =>
    obtain ⟨parts, hvalid, rfl, rfl⟩ := ih
    refine ⟨tree :: parts, List.forall_mem_cons.mpr ⟨htree.valid, hvalid⟩, ?_, ?_⟩
    · rw [List.map_cons, htree.root_eq]
    · rw [Tree.tokensOf, htree.tokens_eq]

theorem Spans.exists_derives {rule : Rule} {c : Category} {text : List Token} (hrule : rule ∈ c.rules)
    (h : Spans rule.right text) : ∃ tree : Tree, tree.Derives c text := by
  obtain rfl := Category.left_of_mem hrule
  obtain ⟨parts, hvalid, hroots, rfl⟩ := h.exists_parts
  exact ⟨.branch rule parts, .branch hrule hroots hvalid, rfl, rfl⟩

theorem exists_derives_of_phrase {rule : Rule} {c part : Category} {text : List Token} (hrule : rule ∈ c.rules)
    (hright : rule.right = [.category part]) (h : ∃ tree : Tree, tree.Derives part text) :
    ∃ tree : Tree, tree.Derives c text := by
  obtain ⟨tree, htree⟩ := h
  have hspans : Spans rule.right (text ++ []) := by
    rw [hright]
    exact .phrase htree .nil
  rw [List.append_nil] at hspans
  exact hspans.exists_derives hrule

theorem exists_derives_of_token {rule : Rule} {c : Category} {token : Token} (hrule : rule ∈ c.rules)
    (hright : rule.right = [.terminal token.terminal]) : ∃ tree : Tree, tree.Derives c [token] := by
  have hspans : Spans rule.right [token] := by
    rw [hright]
    exact .leaf token .nil
  exact hspans.exists_derives hrule

/-- Two rules make the lists of a category: one of a single entry, and one of a list, a comma and an entry. -/
structure Category.Lists (c entry : Category) : Prop where
  one : ∃ rule ∈ c.rules, rule.right = [.category entry]
  more : ∃ rule ∈ c.rules, rule.right = [.category c, .terminal .comma, .category entry]

theorem lists_members : Category.members.Lists .pair :=
  ⟨⟨.membersOne, by decide, rfl⟩, ⟨.membersMore, by decide, rfl⟩⟩

theorem lists_elements : Category.elements.Lists .value :=
  ⟨⟨.elementsOne, by decide, rfl⟩, ⟨.elementsMore, by decide, rfl⟩⟩

namespace Listed

variable {α : Type} {write : α → List Token} {entries : List α} {body : List Token} {c entry : Category}

/-- A list that has begun goes on. -/
theorem exists_derives_append (hc : c.Lists entry) (h : Listed write entries body)
    (hentries : ∀ e ∈ entries, ∃ tree : Tree, tree.Derives entry (write e)) {text : List Token}
    (hbegun : ∃ tree : Tree, tree.Derives c text) : ∃ (tree : Tree) (all : List Token), tree.Derives c all ∧
      (text ++ .mark .comma :: body = all ∨ text ++ .mark .comma :: body = all ++ [.mark .comma]) := by
  have hmore (e : α) (he : e ∈ entries) {text : List Token} (hbegun : ∃ tree : Tree, tree.Derives c text) :
      ∃ tree : Tree, tree.Derives c (text ++ .mark .comma :: write e) := by
    obtain ⟨rule, hrule, hright⟩ := hc.more
    obtain ⟨begun, hbegun⟩ := hbegun
    obtain ⟨tree, htree⟩ := hentries e he
    have hspans : Spans rule.right (text ++ .mark .comma :: (write e ++ [])) := by
      rw [hright]
      exact .phrase hbegun (.leaf (.mark .comma) (.phrase htree .nil))
    rw [List.append_nil] at hspans
    exact hspans.exists_derives hrule
  induction h generalizing text with
  | nil =>
    obtain ⟨begun, hbegun⟩ := hbegun
    exact ⟨begun, text, hbegun, .inr rfl⟩
  | last e =>
    obtain ⟨tree, htree⟩ := hmore e List.mem_cons_self hbegun
    exact ⟨tree, _, htree, .inl rfl⟩
  | @cons e entries tokens _ ih =>
    have hrest := ih (fun e' he' => hentries e' (List.mem_cons_of_mem _ he')) (hmore e List.mem_cons_self hbegun)
      (fun e' he' _ => hmore e' (List.mem_cons_of_mem _ he'))
    rwa [List.append_assoc] at hrest

/-- A list is empty, or derived up to the last comma if there is one. -/
theorem exists_derives (hc : c.Lists entry) (h : Listed write entries body)
    (hentries : ∀ e ∈ entries, ∃ tree : Tree, tree.Derives entry (write e)) :
    body = [] ∨ ∃ (tree : Tree) (all : List Token), tree.Derives c all ∧
      (body = all ∨ body = all ++ [.mark .comma]) := by
  obtain ⟨one, hmem, hright⟩ := hc.one
  cases h with
  | nil => exact .inl rfl
  | last e =>
    obtain ⟨tree, htree⟩ := exists_derives_of_phrase hmem hright (hentries e List.mem_cons_self)
    exact .inr ⟨tree, _, htree, .inl rfl⟩
  | cons e hrest =>
    exact .inr (hrest.exists_derives_append hc (fun e' he' => hentries e' (List.mem_cons_of_mem _ he'))
      (exists_derives_of_phrase hmem hright (hentries e List.mem_cons_self)))

end Listed

namespace Writes

theorem exists_derives_array {items : List (Value × List Token)} {body : List Token} (h : Listed Prod.snd items body)
    (hitems : ∀ item ∈ items, ∃ tree : Tree, tree.Derives .value item.2) :
    ∃ tree : Tree, tree.Derives .array (.mark .leftBracket :: (body ++ [.mark .rightBracket])) := by
  rcases h.exists_derives lists_elements hitems with rfl | ⟨tree, all, htree, rfl | rfl⟩
  · have hspans : Spans Rule.arrayEmpty.right [.mark .leftBracket, .mark .rightBracket] :=
      .leaf (.mark .leftBracket) (.leaf (.mark .rightBracket) .nil)
    exact hspans.exists_derives (by decide)
  · have hspans : Spans Rule.arrayFull.right (.mark .leftBracket :: (body ++ [.mark .rightBracket])) :=
      .leaf (.mark .leftBracket) (.phrase htree (.leaf (.mark .rightBracket) .nil))
    exact hspans.exists_derives (by decide)
  · have hspans : Spans Rule.arrayTrailing.right
        (.mark .leftBracket :: (all ++ [.mark .comma, .mark .rightBracket])) :=
      .leaf (.mark .leftBracket) (.phrase htree (.leaf (.mark .comma) (.leaf (.mark .rightBracket) .nil)))
    rw [List.append_assoc]
    exact hspans.exists_derives (by decide)

theorem exists_derives_object (name : String) {fields : List ((String × Value) × List Token)} {body : List Token}
    (h : Listed fieldText fields body) (hfields : ∀ field ∈ fields, ∃ tree : Tree, tree.Derives .value field.2) :
    ∃ tree : Tree, tree.Derives .object (.ident name :: .mark .leftBrace :: (body ++ [.mark .rightBrace])) := by
  have hpairs : ∀ field ∈ fields, ∃ tree : Tree, tree.Derives .pair (fieldText field) := by
    intro field hfield
    obtain ⟨tree, htree⟩ := hfields field hfield
    have hspans : Spans Rule.pair.right (.ident field.1.1 :: .mark .colon :: (field.2 ++ [])) :=
      .leaf (.ident field.1.1) (.leaf (.mark .colon) (.phrase htree .nil))
    rw [List.append_nil] at hspans
    exact hspans.exists_derives (by decide)
  rcases h.exists_derives lists_members hpairs with rfl | ⟨tree, all, htree, rfl | rfl⟩
  · have hspans : Spans Rule.objectEmpty.right [.ident name, .mark .leftBrace, .mark .rightBrace] :=
      .leaf (.ident name) (.leaf (.mark .leftBrace) (.leaf (.mark .rightBrace) .nil))
    exact hspans.exists_derives (by decide)
  · have hspans : Spans Rule.objectFull.right (.ident name :: .mark .leftBrace :: (body ++ [.mark .rightBrace])) :=
      .leaf (.ident name) (.leaf (.mark .leftBrace) (.phrase htree (.leaf (.mark .rightBrace) .nil)))
    exact hspans.exists_derives (by decide)
  · have hspans : Spans Rule.objectTrailing.right
        (.ident name :: .mark .leftBrace :: (all ++ [.mark .comma, .mark .rightBrace])) :=
      .leaf (.ident name) (.leaf (.mark .leftBrace)
        (.phrase htree (.leaf (.mark .comma) (.leaf (.mark .rightBrace) .nil))))
    rw [List.append_assoc]
    exact hspans.exists_derives (by decide)

/-- **Written data can be derived,** and an array that is written as one. -/
theorem exists_derives {v : Value} {text : List Token} (h : Writes v text) : (∃ tree : Tree, tree.Derives .value text) ∧
    ∀ items, v = .array items → ∃ tree : Tree, tree.Derives .array text := by
  have hobject {text : List Token} (h : ∃ tree : Tree, tree.Derives .object text) :
      ∃ tree : Tree, tree.Derives .value text :=
    exists_derives_of_phrase (show Rule.valueObject ∈ Category.value.rules by decide) rfl h
  induction h with
  | literal s =>
    exact ⟨exists_derives_of_token (show Rule.valueLiteral ∈ Category.value.rules by decide) rfl, by simp⟩
  | number x =>
    exact ⟨exists_derives_of_token (show Rule.valueNumber ∈ Category.value.rules by decide) rfl, by simp⟩
  | trueWord =>
    exact ⟨exists_derives_of_token (show Rule.valueTrue ∈ Category.value.rules by decide) rfl, by simp⟩
  | falseWord =>
    exact ⟨exists_derives_of_token (show Rule.valueFalse ∈ Category.value.rules by decide) rfl, by simp⟩
  | bare name =>
    have hbare : ∃ tree : Tree, tree.Derives .object [.ident name] :=
      exists_derives_of_token (show Rule.objectBare ∈ Category.object.rules by decide) rfl
    exact ⟨hobject hbare, by simp⟩
  | object name _ hlisted ih =>
    exact ⟨hobject (exists_derives_object name hlisted fun field hfield => (ih field hfield).1), by simp⟩
  | array _ hlisted ih =>
    have harray := exists_derives_array hlisted fun item hitem => (ih item hitem).1
    refine ⟨?_, fun _ _ => harray⟩
    exact exists_derives_of_phrase (show Rule.valueArray ∈ Category.value.rules by decide) rfl harray
  | @experiments items text _ ih =>
    obtain ⟨tree, htree⟩ := ih.2 items rfl
    have hspans : Spans Rule.valueExperiments.right (.mark .bang :: (text ++ [])) :=
      .leaf (.mark .bang) (.phrase htree .nil)
    rw [List.append_nil] at hspans
    exact ⟨hspans.exists_derives (by decide), by simp⟩
  | @namedExperiments name items text _ ih =>
    obtain ⟨tree, htree⟩ := ih.2 items rfl
    have hspans : Spans Rule.valueNamedExperiments.right (.ident name :: .mark .bang :: (text ++ [])) :=
      .leaf (.ident name) (.leaf (.mark .bang) (.phrase htree .nil))
    rw [List.append_nil] at hspans
    exact ⟨hspans.exists_derives (by decide), by simp⟩

end Writes

/-! ### The parser on written data -/

theorem Listed.forall_mem {α : Type} {write : α → List Token} {entries : List α} {body : List Token}
    (h : Listed write entries body) {p : Token → Prop} (hcomma : p (.mark .comma))
    (hentries : ∀ entry ∈ entries, ∀ token ∈ write entry, p token) : ∀ token ∈ body, p token := by
  induction h with
  | nil => exact fun token htoken => absurd htoken List.not_mem_nil
  | last entry => exact hentries entry List.mem_cons_self
  | cons entry _ ih =>
    refine List.forall_mem_append.mpr ⟨hentries entry List.mem_cons_self, List.forall_mem_cons.mpr ⟨hcomma, ?_⟩⟩
    exact ih fun e he => hentries e (List.mem_cons_of_mem _ he)

theorem Writes.plain {v : Value} {text : List Token} (h : Writes v text) : ∀ token ∈ text, token.Plain := by
  have hident (name : String) : (Token.ident name).Plain := by simp [Token.Plain, Token.Proper, Token.terminal]
  have hmark {t : Terminal} (h : t ∉ [Terminal.number, .literal, .ident, .whereWord, .equal]) :
      (Token.mark t).Plain := by
    simp only [List.mem_cons, List.not_mem_nil, or_false, not_or] at h
    exact ⟨⟨h.1, h.2.1, h.2.2.1⟩, h.2.2.2⟩
  induction h with
  | literal | number | trueWord | falseWord | bare =>
    simp [Token.Plain, Token.Proper, Token.terminal]
  | @object name fields body _ hlisted ih =>
    have hbody := hlisted.forall_mem (hmark (by decide)) fun field hfield =>
      List.forall_mem_cons.mpr ⟨hident field.1.1, List.forall_mem_cons.mpr ⟨hmark (by decide), ih field hfield⟩⟩
    exact List.forall_mem_cons.mpr ⟨hident name, List.forall_mem_cons.mpr ⟨hmark (by decide),
      List.forall_mem_append.mpr ⟨hbody, List.forall_mem_singleton.mpr (hmark (by decide))⟩⟩⟩
  | array _ hlisted ih =>
    have hbody := hlisted.forall_mem (hmark (by decide)) ih
    exact List.forall_mem_cons.mpr ⟨hmark (by decide),
      List.forall_mem_append.mpr ⟨hbody, List.forall_mem_singleton.mpr (hmark (by decide))⟩⟩
  | experiments _ ih => exact List.forall_mem_cons.mpr ⟨hmark (by decide), ih⟩
  | namedExperiments name _ ih =>
    exact List.forall_mem_cons.mpr ⟨hident name, List.forall_mem_cons.mpr ⟨hmark (by decide), ih⟩⟩

/-- **Every derivation of written data has this data as its value.** -/
theorem Writes.node_eq {v : Value} {tokens : List Token} (h : Writes v tokens) {tree : Tree} {node : Node}
    (htree : tree.Derives .value tokens) (hnode : tree.node? = some node) : node = .value v := by
  have htells := htree.valid.tells (by rw [htree.tokens_eq]; exact h.plain) hnode
  rw [htree.root_eq, htree.tokens_eq] at htells
  obtain ⟨v', rfl, h'⟩ := htells
  obtain ⟨rfl, -⟩ := h.eq_of_append_eq h' closes_nil closes_nil rfl
  rfl

theorem Writes.parseTokens_eq {v : Value} {tokens : List Token} (h : Writes v tokens) :
    parseTokens .value tokens = .ok (.value v) := by
  have hproper : ∀ token ∈ tokens, token.Proper := fun token htoken => (h.plain token htoken).1
  rcases parseTokens_cases hproper .value with ⟨-, hnone⟩ | ⟨node, tree, hparse, htree, hnode⟩ | ⟨-, hgoal, -⟩
  · exact absurd h.exists_derives.1 hnone
  · rw [hparse, h.node_eq htree hnode]
  · cases hgoal

/-- **Data is read as it was written.** It can be written, and of each way to write it the parser answers the data. -/
theorem parseTokens_written {v : Value} (hdata : v.Data) :
    (∃ tokens, Writes v tokens) ∧ ∀ tokens, Writes v tokens → parseTokens .value tokens = .ok (.value v) :=
  ⟨hdata.exists_writes, fun _ hwrites => hwrites.parseTokens_eq⟩

/-- Repeated fields are kept, and the comma behind the last is no field more. -/
theorem parseTokens_written_repeated :
    (Value.object "Net" [("sizes", .array [.number 2, .bool true]), ("sizes", .experiments [])]).Data ∧
      Writes (.object "Net" [("sizes", .array [.number 2, .bool true]), ("sizes", .experiments [])])
        [.ident "Net", .mark .leftBrace,
          .ident "sizes", .mark .colon, .mark .leftBracket, .number 2, .mark .comma, .mark .trueWord,
          .mark .rightBracket, .mark .comma,
          .ident "sizes", .mark .colon, .mark .bang, .mark .leftBracket, .mark .rightBracket,
          .mark .comma, .mark .rightBrace] ∧
      parseTokens .value
        [.ident "Net", .mark .leftBrace,
          .ident "sizes", .mark .colon, .mark .leftBracket, .number 2, .mark .comma, .mark .trueWord,
          .mark .rightBracket, .mark .comma,
          .ident "sizes", .mark .colon, .mark .bang, .mark .leftBracket, .mark .rightBracket,
          .mark .comma, .mark .rightBrace] =
        .ok (.value (.object "Net" [("sizes", .array [.number 2, .bool true]), ("sizes", .experiments [])])) := by
  have hsizes : (Value.array [.number 2, .bool true]).Data := .array (by
    simp only [List.forall_mem_cons]
    exact ⟨.number 2, .bool true, by simp⟩)
  have hdata : (Value.object "Net" [("sizes", .array [.number 2, .bool true]), ("sizes", .experiments [])]).Data :=
    .object "Net" (by
      simp only [List.forall_mem_cons]
      exact ⟨hsizes, .experiments (by simp), by simp⟩)
  have harray : Writes (.array [.number 2, .bool true])
      [.mark .leftBracket, .number 2, .mark .comma, .mark .trueWord, .mark .rightBracket] :=
    @Writes.array [(.number 2, [.number 2]), (.bool true, [.mark .trueWord])] _ (by
      simp only [List.forall_mem_cons]
      exact ⟨.number 2, .trueWord, by simp⟩) (.cons _ (.last _))
  have hempty : Writes (.experiments []) [.mark .bang, .mark .leftBracket, .mark .rightBracket] :=
    .experiments (@Writes.array [] _ (by simp) .nil)
  have hwrites := @Writes.object "Net" [(("sizes", _), _), (("sizes", _), _)] _ (by
      simp only [List.forall_mem_cons]
      exact ⟨harray, hempty, by simp⟩) (.cons _ (.cons _ .nil))
  exact ⟨hdata, hwrites, (parseTokens_written hdata).2 _ hwrites⟩

end DragonflyFabric.Language
