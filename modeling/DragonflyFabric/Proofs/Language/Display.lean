import DragonflyFabric.Proofs.Language.Data
import DragonflyFabric.Proofs.Language.Lexemes

/-!
# Displayed data is read back

A value is displayed piece by piece: layout, names, marks and constants. Each piece is one lexeme of what it stands
in, or none at all, as long as what follows does not go on it. So the lexemes are put together from the end of the
text to its front, `Value.Legible.reads`, and the tokens among them are one of the ways to write the value. The
comma stands behind the last entry too.

Layout is passed over together with whatever blanks are behind it, and two of the characters that begin names are
blanks. Names that begin so are told only where no layout is before them: at the front of the text.

What is displayed of legible data is read as this data: `parseValue_display`.
-/

namespace DragonflyFabric.Language

open DragonflyFabric.Decimal (Style)
open Lexer (IsName Escaped Lexes Ends isBlank lexeme?)

/-! ### Layout and what is behind it -/

/-- No blank is at the front but layout. -/
def Solid (cs : List Char) : Prop := ∀ c ∈ cs.head?, isBlank c → c = '\n' ∨ c = '\t'

/-- The tokens of a text that layout can be set before. -/
structure Reads (cs : List Char) (tokens : List Token) : Prop where
  lexes : Lexes cs tokens
  solid : Solid cs

theorem solid_cons {c : Char} (h : isBlank c = false) (cs : List Char) : Solid (c :: cs) := by
  rintro _ ⟨⟩ hblank
  rw [h] at hblank
  cases hblank

theorem reads_nil : Reads [] [] := ⟨.nil, by rintro c ⟨⟩⟩

theorem lexeme?_newline (cs : List Char) : lexeme? ('\n' :: cs) = some (none, cs.dropWhile isBlank) := rfl

theorem lexeme?_tab (cs : List Char) : lexeme? ('\t' :: cs) = some (none, cs.dropWhile isBlank) := rfl

namespace Reads

variable {cs : List Char} {tokens : List Token}

/-- Blanks behind a piece of layout are passed over with it. -/
theorem dropBlanks (h : Reads cs tokens) : Lexes (cs.dropWhile isBlank) tokens := by
  obtain ⟨hlexes, hsolid⟩ := h
  cases cs with
  | nil => exact hlexes
  | cons c cs =>
    by_cases hblank : isBlank c
    · rw [List.dropWhile_cons_of_pos hblank]
      cases hlexes with
      | cons hlexeme hrest =>
        rcases hsolid c rfl hblank with rfl | rfl
        · cases (lexeme?_newline cs).symm.trans hlexeme
          exact hrest
        · cases (lexeme?_tab cs).symm.trans hlexeme
          exact hrest
    · rw [List.dropWhile_cons_of_neg hblank]
      exact hlexes

theorem newline (h : Reads cs tokens) : Reads ('\n' :: cs) tokens :=
  ⟨.cons (lexeme?_newline cs) h.dropBlanks, by rintro _ ⟨⟩ _; exact .inl rfl⟩

theorem tab (h : Reads cs tokens) : Reads ('\t' :: cs) tokens :=
  ⟨.cons (lexeme?_tab cs) h.dropBlanks, by rintro _ ⟨⟩ _; exact .inr rfl⟩

theorem tabs (h : Reads cs tokens) (depth : Nat) : Reads (List.replicate depth '\t' ++ cs) tokens := by
  induction depth with
  | zero => exact h
  | succ depth ih => exact ih.tab

theorem mark {c : Char} {t : Terminal} (hlexeme : lexeme? (c :: cs) = some (some (.mark t), cs))
    (hc : isBlank c = false) (h : Lexes cs tokens) : Reads (c :: cs) (.mark t :: tokens) :=
  ⟨.cons hlexeme h, solid_cons hc cs⟩

end Reads

/-- A name that is told behind layout: it does not begin as a blank. -/
def Visible (name : String) : Prop := name.toList.head?.any isBlank = false

instance (name : String) : Decidable (Visible name) :=
  inferInstanceAs (Decidable (name.toList.head?.any isBlank = false))

theorem Visible.solid {name : String} (h : Visible name) (hname : IsName name) (cs : List Char) :
    Solid (name.toList ++ cs) := by
  rw [Visible] at h
  have hne : name.toList ≠ [] := by
    intro hnil
    rw [IsName, hnil] at hname
    cases hname
  cases hcs : name.toList with
  | nil => exact absurd hcs hne
  | cons c more =>
    rw [hcs] at h
    exact solid_cons h _

theorem lexes_name {name : String} {cs : List Char} {tokens : List Token} (h : IsName name) (hends : Ends cs)
    (hcs : Lexes cs tokens) : Lexes (name.toList ++ cs) (.ident name :: tokens) :=
  .cons (h.lexeme?_append hends) hcs

/-! ### Legible data -/

/-- Data that is legible at a depth. Its literals are plain text in which no quote is left open, its numbers are
displayed as they are read, and its names are single identifiers. Behind layout they are visible too, as are all names
but that of an object at depth zero. -/
inductive Value.Legible : Nat → Value → Prop
  | literal {depth : Nat} {text : String} : (∀ c ∈ text.toList, c.toNat < 128) → Escaped text.toList →
    Legible depth (.literal text)
  | number {depth : Nat} {x : Float} : Lexer.number? (Style.plain.write x).toList = some (x, []) →
    Legible depth (.number x)
  | bool {depth : Nat} (b : Bool) : Legible depth (.bool b)
  | object {depth : Nat} {name : String} {fields : List (String × Value)} : IsName name → (depth ≠ 0 → Visible name) →
    (∀ field ∈ fields, IsName field.1 ∧ Visible field.1) → (∀ field ∈ fields, Legible (depth + 1) field.2) →
    Legible depth (.object name fields)
  | array {depth : Nat} {items : List Value} : (∀ item ∈ items, Legible (depth + 1) item) →
    Legible depth (.array items)

/-- These tokens are found where the value is displayed, whatever comes behind it. -/
def ReadsAt (depth : Nat) (v : Value) (tokens : List Token) : Prop :=
  ∀ {rest : List Char} {more : List Token}, Reads rest more → Ends rest →
    Lexes ((v.displayAt depth).toList ++ rest) (tokens ++ more)

theorem toList_tabs (depth : Nat) : (Value.tabs depth).toList = List.replicate depth '\t' := String.toList_ofList

/-- What begins with tabs is read if what is behind them is, and without any tabs nothing more is asked. -/
theorem lexes_tabs {cs : List Char} {tokens : List Token} {depth : Nat} (h : Lexes cs tokens)
    (hsolid : depth ≠ 0 → Solid cs) : Lexes ((Value.tabs depth).toList ++ cs) tokens := by
  rw [toList_tabs]
  cases depth with
  | zero => exact h
  | succ depth => exact (Reads.tabs ⟨h, hsolid (Nat.succ_ne_zero depth)⟩ (depth + 1)).lexes

theorem ends_newline (cs : List Char) : Ends ('\n' :: cs) := Lexer.ends_cons rfl (by decide) cs

theorem ends_comma (cs : List Char) : Ends (',' :: cs) := Lexer.ends_cons rfl (by decide) cs

theorem ends_colon (cs : List Char) : Ends (':' :: cs) := Lexer.ends_cons rfl (by decide) cs

/-- Inside of another value the text begins with a tab. -/
theorem solid_displayAt (depth : Nat) (v : Value) (rest : List Char) :
    Solid ((v.displayAt (depth + 1)).toList ++ rest) := by
  have htabs : ∃ text, v.displayAt (depth + 1) = Value.tabs (depth + 1) ++ text := by
    cases v <;> simp only [Value.displayAt, String.append_assoc] <;> exact ⟨_, rfl⟩
  obtain ⟨text, htext⟩ := htabs
  rw [htext, String.toList_append, toList_tabs]
  rintro _ ⟨⟩ _
  exact .inr rfl

theorem ReadsAt.reads {depth : Nat} {v : Value} {tokens : List Token} (h : ReadsAt (depth + 1) v tokens)
    {rest : List Char} {more : List Token} (hrest : Reads rest more) (hends : Ends rest) :
    Reads ((v.displayAt (depth + 1)).toList ++ rest) (tokens ++ more) :=
  ⟨h hrest hends, solid_displayAt depth v rest⟩

theorem Reads.commaNewline {cs : List Char} {tokens : List Token} (h : Reads cs tokens) :
    Reads (',' :: '\n' :: cs) (.mark .comma :: tokens) := .mark rfl rfl h.newline.lexes

/-- The elements of an array are read one by one, each with its comma. -/
theorem reads_items (depth : Nat) {items : List (Value × List Token)}
    (hitems : ∀ item ∈ items, ReadsAt (depth + 1) item.1 item.2) : ∃ body, Listed Prod.snd items body ∧
      ∀ {rest : List Char} {more : List Token}, Reads rest more →
        Reads ((Value.displayItems depth (items.map Prod.fst)).toList ++ rest) (body ++ more) := by
  induction items with
  | nil => exact ⟨[], .nil, fun hrest => hrest⟩
  | cons item items ih =>
    obtain ⟨hitem, hitems⟩ := List.forall_mem_cons.mp hitems
    obtain ⟨body, hlisted, hbody⟩ := ih hitems
    refine ⟨_, .cons item hlisted, fun {rest more} hrest => ?_⟩
    have htext : (Value.displayItems depth ((item :: items).map Prod.fst)).toList ++ rest =
        (item.1.displayAt (depth + 1)).toList ++
          ',' :: '\n' :: ((Value.displayItems depth (items.map Prod.fst)).toList ++ rest) := by
      rw [List.map_cons, Value.displayItems]
      simp only [String.toList_append, List.append_assoc]
      rfl
    rw [htext, List.append_assoc]
    exact hitem.reads (hbody hrest).commaNewline (ends_comma _)

/-- The fields of an object are read one by one, each behind its name. -/
theorem reads_fields (depth : Nat) {fields : List ((String × Value) × List Token)}
    (hnames : ∀ field ∈ fields, IsName field.1.1 ∧ Visible field.1.1)
    (hfields : ∀ field ∈ fields, ReadsAt (depth + 1) field.1.2 field.2) : ∃ body, Listed fieldText fields body ∧
      ∀ {rest : List Char} {more : List Token}, Reads rest more →
        Reads ((Value.displayFields depth (fields.map Prod.fst)).toList ++ rest) (body ++ more) := by
  induction fields with
  | nil => exact ⟨[], .nil, fun hrest => hrest⟩
  | cons field fields ih =>
    obtain ⟨⟨hname, hvisible⟩, hnames⟩ := List.forall_mem_cons.mp hnames
    obtain ⟨hfield, hfields⟩ := List.forall_mem_cons.mp hfields
    obtain ⟨body, hlisted, hbody⟩ := ih hnames hfields
    refine ⟨_, .cons field hlisted, fun {rest more} hrest => ?_⟩
    have hvalue := hfield.reads (hbody hrest).commaNewline (ends_comma _)
    have hcolon : Reads (':' :: '\n' :: _) (.mark .colon :: _) := .mark rfl rfl hvalue.newline.lexes
    have hkey : Reads (field.1.1.toList ++ ':' :: '\n' :: _) (.ident field.1.1 :: .mark .colon :: _) :=
      ⟨lexes_name hname (ends_colon _) hcolon.lexes, hvisible.solid hname _⟩
    have htext : (Value.displayFields depth ((field :: fields).map Prod.fst)).toList ++ rest =
        List.replicate depth '\t' ++ '\t' :: (field.1.1.toList ++ ':' :: '\n' ::
          ((field.1.2.displayAt (depth + 1)).toList ++
            ',' :: '\n' :: ((Value.displayFields depth (fields.map Prod.fst)).toList ++ rest))) := by
      rw [List.map_cons, Value.displayFields]
      simp only [String.toList_append, List.append_assoc, toList_tabs]
      rfl
    rw [htext, List.append_assoc]
    exact hkey.tab.tabs depth

theorem solid_number {cs : List Char} {x : Float} (h : Lexer.number? cs = some (x, [])) (rest : List Char) :
    Solid (cs ++ rest) := by
  cases cs with
  | nil => cases h
  | cons c cs => exact solid_cons (Lexer.not_isBlank_of_number? h) _

theorem readsAt_literal (depth : Nat) {text : String} (hascii : ∀ c ∈ text.toList, c.toNat < 128)
    (hescaped : Escaped text.toList) : ReadsAt depth (.literal text) [.literal text] := by
  intro rest more hrest hends
  have htext : ((Value.literal text).displayAt depth).toList ++ rest =
      (Value.tabs depth).toList ++ '"' :: (text.toList ++ '"' :: rest) := by
    simp only [Value.displayAt, String.toList_append, List.append_assoc]
    rfl
  rw [htext]
  exact lexes_tabs (.cons (Lexer.lexeme?_literal hascii hescaped rest) hrest.lexes) fun _ => solid_cons rfl _

theorem readsAt_number (depth : Nat) {x : Float} (hx : Lexer.number? (Style.plain.write x).toList = some (x, [])) :
    ReadsAt depth (.number x) [.number x] := by
  intro rest more hrest hends
  rw [Value.displayAt, String.toList_append, List.append_assoc]
  exact lexes_tabs (.cons (Lexer.lexeme?_number hx hends) hrest.lexes) fun _ => solid_number hx rest

theorem readsAt_true (depth : Nat) : ReadsAt depth (.bool true) [.mark .trueWord] := by
  intro rest more hrest hends
  rw [Value.displayAt, String.toList_append, List.append_assoc]
  exact lexes_tabs (.cons (Lexer.lexeme?_true hends) hrest.lexes) fun _ => solid_cons rfl _

theorem readsAt_false (depth : Nat) : ReadsAt depth (.bool false) [.mark .falseWord] := by
  intro rest more hrest hends
  rw [Value.displayAt, String.toList_append, List.append_assoc]
  exact lexes_tabs (.cons (Lexer.lexeme?_false hends) hrest.lexes) fun _ => solid_cons rfl _

/-- The brace that opens an object stands on a line of its own, behind as many tabs as the name. -/
theorem readsAt_object {depth : Nat} {name : String} {fields : List (String × Value)} {body : List Token}
    (hname : IsName name) (hvisible : depth ≠ 0 → Visible name)
    (hfields : ∀ {rest : List Char} {more : List Token}, Reads rest more →
      Reads ((Value.displayFields depth fields).toList ++ rest) (body ++ more)) :
    ReadsAt depth (.object name fields) (.ident name :: .mark .leftBrace :: (body ++ [.mark .rightBrace])) := by
  intro rest more hrest hends
  have hclose : Reads ('\x7d' :: '\n' :: rest) (.mark .rightBrace :: more) := .mark rfl rfl hrest.newline.lexes
  have hbody := hfields (hclose.tabs depth)
  have hopen : Reads ('\x7b' :: '\n' :: _) (.mark .leftBrace :: _) := .mark rfl rfl hbody.newline.lexes
  have hline := (hopen.tabs depth).newline
  have htext : ((Value.object name fields).displayAt depth).toList ++ rest =
      (Value.tabs depth).toList ++ (name.toList ++ '\n' :: (List.replicate depth '\t' ++ '\x7b' :: '\n' ::
        ((Value.displayFields depth fields).toList ++ (List.replicate depth '\t' ++ '\x7d' :: '\n' :: rest)))) := by
    simp only [Value.displayAt, String.toList_append, List.append_assoc, toList_tabs]
    rfl
  rw [htext, List.cons_append, List.cons_append, List.append_assoc]
  exact lexes_tabs (lexes_name hname (ends_newline _) hline.lexes) fun hdepth => (hvisible hdepth).solid hname _

theorem readsAt_array {depth : Nat} {items : List Value} {body : List Token}
    (hitems : ∀ {rest : List Char} {more : List Token}, Reads rest more →
      Reads ((Value.displayItems depth items).toList ++ rest) (body ++ more)) :
    ReadsAt depth (.array items) (.mark .leftBracket :: (body ++ [.mark .rightBracket])) := by
  intro rest more hrest hends
  have hclose : Reads (']' :: '\n' :: rest) (.mark .rightBracket :: more) := .mark rfl rfl hrest.newline.lexes
  have hbody := hitems (hclose.tabs depth)
  have hopen : Reads ('[' :: '\n' :: _) (.mark .leftBracket :: _) := .mark rfl rfl hbody.newline.lexes
  have htext : ((Value.array items).displayAt depth).toList ++ rest =
      (Value.tabs depth).toList ++ '[' :: '\n' :: ((Value.displayItems depth items).toList ++
        (List.replicate depth '\t' ++ ']' :: '\n' :: rest)) := by
    simp only [Value.displayAt, String.toList_append, List.append_assoc, toList_tabs]
    rfl
  rw [htext, List.cons_append, List.append_assoc]
  exact lexes_tabs hopen.lexes fun _ => hopen.solid

/-- **Legible data is displayed in one of the ways to write it.** -/
theorem Value.Legible.reads {depth : Nat} {v : Value} (h : v.Legible depth) :
    ∃ tokens, Writes v tokens ∧ ReadsAt depth v tokens := by
  induction h with
  | @literal depth text hascii hescaped => exact ⟨_, .literal text, readsAt_literal depth hascii hescaped⟩
  | @number depth x hx => exact ⟨_, .number x, readsAt_number depth hx⟩
  | @bool depth b =>
    cases b with
    | true => exact ⟨_, .trueWord, readsAt_true depth⟩
    | false => exact ⟨_, .falseWord, readsAt_false depth⟩
  | @object depth name fields hname hvisible hkeys _ ih =>
    obtain ⟨written, rfl, hwritten⟩ := exists_pairs (p := fun field tokens =>
      (IsName field.1 ∧ Visible field.1) ∧ Writes field.2 tokens ∧ ReadsAt (depth + 1) field.2 tokens)
      fun field hfield => (ih field hfield).imp fun _ h => ⟨hkeys field hfield, h⟩
    obtain ⟨body, hlisted, hfields⟩ := reads_fields depth (fun field hfield => (hwritten field hfield).1)
      fun field hfield => (hwritten field hfield).2.2
    exact ⟨_, .object name (fun field hfield => (hwritten field hfield).2.1) hlisted,
      readsAt_object hname hvisible hfields⟩
  | @array depth items _ ih =>
    obtain ⟨written, rfl, hwritten⟩ := exists_pairs ih
    obtain ⟨body, hlisted, hitems⟩ := reads_items depth fun item hitem => (hwritten item hitem).2
    exact ⟨_, .array (fun item hitem => (hwritten item hitem).1) hlisted, readsAt_array hitems⟩

/-- **What is displayed of legible data is read as this data.** -/
theorem parseValue_display {v : Value} (h : v.Legible 0) : parseValue v.display = .ok v := by
  obtain ⟨tokens, hwrites, hreads⟩ := h.reads
  have hlexes := hreads reads_nil Lexer.ends_nil
  rw [List.append_nil, List.append_nil] at hlexes
  have hparse : parse .value v.display = .ok (.value v) := by
    rw [parse, Value.display, Lexer.tokens?_eq_some_iff.mpr hlexes]
    exact hwrites.parseTokens_eq
  rw [parseValue, hparse]

/-- An object among the elements of an array stands behind two tabs, and its brace on a line of its own. -/
theorem parseValue_display_nested :
    (Value.object "Net" [("size", .number 2.5),
      ("links", .array [.bool true, .literal "a\\\"b", .object "Fixed" []])]).Legible 0 ∧
    parseValue (Value.object "Net" [("size", .number 2.5),
      ("links", .array [.bool true, .literal "a\\\"b", .object "Fixed" []])]).display =
      .ok (.object "Net" [("size", .number 2.5),
        ("links", .array [.bool true, .literal "a\\\"b", .object "Fixed" []])]) := by
  have hescaped : Escaped "a\\\"b".toList :=
    .plain (by decide) (by decide) (.pair '"' (.plain (by decide) (by decide) .nil))
  have hlinks : (Value.array [.bool true, .literal "a\\\"b", .object "Fixed" []]).Legible 1 := .array (by
    simp only [List.forall_mem_cons]
    exact ⟨.bool true, .literal (by simp) hescaped, .object rfl (fun _ => by decide) (by simp) (by simp), by simp⟩)
  have hlegible : (Value.object "Net" [("size", .number 2.5),
      ("links", .array [.bool true, .literal "a\\\"b", .object "Fixed" []])]).Legible 0 := by
    refine .object rfl (fun h => absurd rfl h) ?_ ?_
    · simp only [List.forall_mem_cons]
      exact ⟨⟨rfl, by decide⟩, ⟨rfl, by decide⟩, by simp⟩
    · simp only [List.forall_mem_cons]
      exact ⟨.number rfl, hlinks, by simp⟩
  exact ⟨hlegible, parseValue_display hlegible⟩

/-- A name that begins with the blank U+00A0 is a single identifier, but behind a tab it is read without the blank. -/
theorem parseValue_display_blank :
    IsName "A" ∧ IsName "\u00a0b" ∧
      parseValue (Value.object "A" [("\u00a0b", .bool true)]).display = .ok (.object "A" [("b", .bool true)]) ∧
      parseValue (Value.object "A" [("\u00a0b", .bool true)]).display ≠
        .ok (.object "A" [("\u00a0b", .bool true)]) := by
  have hwrites := @Writes.object "A" [(("b", .bool true), [.mark .trueWord])] _ (by
    simp only [List.forall_mem_cons]
    exact ⟨.trueWord, by simp⟩) (.cons _ .nil)
  have htokens : Lexer.tokens? (Value.object "A" [("\u00a0b", .bool true)]).display.toList =
      some [.ident "A", .mark .leftBrace, .ident "b", .mark .colon, .mark .trueWord, .mark .comma,
        .mark .rightBrace] := rfl
  have hparse : parseValue (Value.object "A" [("\u00a0b", .bool true)]).display =
      .ok (.object "A" [("b", .bool true)]) := by
    have htext : parse .value (Value.object "A" [("\u00a0b", .bool true)]).display =
        .ok (.value (.object "A" [("b", .bool true)])) := by
      rw [parse, htokens]
      exact hwrites.parseTokens_eq
    rw [parseValue, htext]
  refine ⟨rfl, rfl, hparse, ?_⟩
  rw [hparse]
  simp

end DragonflyFabric.Language
