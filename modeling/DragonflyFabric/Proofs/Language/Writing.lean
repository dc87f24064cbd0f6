import DragonflyFabric.Language.Token
import DragonflyFabric.Language.Value

/-!
# Written data

Data are the values without conditions and expressions, at any depth. They are written with a comma behind each
field and each element, which may be left out behind the last, and an object without fields may be written as
its name alone: `Writes`. All data can be written, `Value.Data.exists_writes`.

The first tokens of a written value tell which form it has, and so its end is told too, if no more follows
it than what can stand behind a value: `Writes.eq_of_append_eq`.
-/

namespace DragonflyFabric.Language

/-- Data: nothing in it is an expression or bound to a condition. -/
inductive Value.Data : Value → Prop
  | literal (text : String) : Data (.literal text)
  | number (x : Float) : Data (.number x)
  | bool (b : Bool) : Data (.bool b)
  | object (name : String) {fields : List (String × Value)} : (∀ field ∈ fields, Data field.2) →
    Data (.object name fields)
  | array {items : List Value} : (∀ item ∈ items, Data item) → Data (.array items)
  | experiments {items : List Value} : (∀ item ∈ items, Data item) → Data (.experiments items)
  | namedExperiments (name : String) {items : List Value} : (∀ item ∈ items, Data item) →
    Data (.namedExperiments name items)

/-- Entries, each written with a comma behind it; that behind the last may be left out. -/
inductive Listed {α : Type} (write : α → List Token) : List α → List Token → Prop
  | nil : Listed write [] []
  | last (entry : α) : Listed write [entry] (write entry)
  | cons (entry : α) {entries : List α} {tokens : List Token} : Listed write entries tokens →
    Listed write (entry :: entries) (write entry ++ .mark .comma :: tokens)

/-- A field of an object is written as its name, a colon and its value. -/
def fieldText (field : (String × Value) × List Token) : List Token :=
  .ident field.1.1 :: .mark .colon :: field.2

/-- The tokens are a way to write the value. -/
inductive Writes : Value → List Token → Prop
  | literal (text : String) : Writes (.literal text) [.literal text]
  | number (x : Float) : Writes (.number x) [.number x]
  | trueWord : Writes (.bool true) [.mark .trueWord]
  | falseWord : Writes (.bool false) [.mark .falseWord]
  | bare (name : String) : Writes (.object name []) [.ident name]
  | object (name : String) {fields : List ((String × Value) × List Token)} {body : List Token} :
    (∀ field ∈ fields, Writes field.1.2 field.2) → Listed fieldText fields body →
    Writes (.object name (fields.map Prod.fst)) (.ident name :: .mark .leftBrace :: (body ++ [.mark .rightBrace]))
  | array {items : List (Value × List Token)} {body : List Token} :
    (∀ item ∈ items, Writes item.1 item.2) → Listed Prod.snd items body →
    Writes (.array (items.map Prod.fst)) (.mark .leftBracket :: (body ++ [.mark .rightBracket]))
  | experiments {items : List Value} {text : List Token} : Writes (.array items) text →
    Writes (.experiments items) (.mark .bang :: text)
  | namedExperiments (name : String) {items : List Value} {text : List Token} : Writes (.array items) text →
    Writes (.namedExperiments name items) (.ident name :: .mark .bang :: text)

theorem exists_listed {α : Type} (write : α → List Token) (entries : List α) : ∃ body, Listed write entries body := by
  induction entries with
  | nil => exact ⟨[], .nil⟩
  | cons entry rest ih =>
    obtain ⟨body, hbody⟩ := ih
    exact ⟨_, .cons entry hbody⟩

theorem exists_pairs {α β : Type} {p : α → β → Prop} {xs : List α} (h : ∀ x ∈ xs, ∃ y, p x y) :
    ∃ pairs : List (α × β), pairs.map Prod.fst = xs ∧ ∀ pair ∈ pairs, p pair.1 pair.2 := by
  induction xs with
  | nil => exact ⟨[], rfl, by simp⟩
  | cons x rest ih =>
    obtain ⟨y, hy⟩ := h x List.mem_cons_self
    obtain ⟨pairs, rfl, hpairs⟩ := ih fun x hx => h x (List.mem_cons_of_mem _ hx)
    exact ⟨(x, y) :: pairs, rfl, List.forall_mem_cons.mpr ⟨hy, hpairs⟩⟩

theorem exists_writes_array {items : List Value} (h : ∀ item ∈ items, ∃ text, Writes item text) :
    ∃ text, Writes (.array items) text := by
  obtain ⟨written, rfl, hwritten⟩ := exists_pairs h
  obtain ⟨body, hbody⟩ := exists_listed Prod.snd written
  exact ⟨_, .array hwritten hbody⟩

/-- Data can be written. -/
theorem Value.Data.exists_writes {v : Value} (h : v.Data) : ∃ text, Writes v text := by
  induction h with
  | literal text => exact ⟨_, .literal text⟩
  | number x => exact ⟨_, .number x⟩
  | bool b =>
    cases b
    · exact ⟨_, .falseWord⟩
    · exact ⟨_, .trueWord⟩
  | object name _ ih =>
    obtain ⟨written, rfl, hwritten⟩ := exists_pairs ih
    obtain ⟨body, hbody⟩ := exists_listed fieldText written
    exact ⟨_, .object name hwritten hbody⟩
  | array _ ih => exact exists_writes_array ih
  | experiments _ ih =>
    obtain ⟨text, htext⟩ := exists_writes_array ih
    exact ⟨_, .experiments htext⟩
  | namedExperiments name _ ih =>
    obtain ⟨text, htext⟩ := exists_writes_array ih
    exact ⟨_, .namedExperiments name htext⟩

/-! ### What ends a value -/

/-- A token behind a value that is written inside of another. -/
def Terminal.closes : Terminal → Bool
  | comma | rightBracket | rightBrace => true
  | _ => false

/-- What can follow a written value: nothing, a comma or a bracket that closes. -/
def Closes (rest : List Token) : Prop := ∀ token ∈ rest.head?, token.terminal.closes

/-- What begins as no value ends. -/
def Opens (text : List Token) : Prop := ∃ token ∈ text.head?, token.terminal.closes = false

theorem closes_nil : Closes [] := by rintro token ⟨⟩

theorem closes_mark {t : Terminal} (h : t.closes) (rest : List Token) : Closes (.mark t :: rest) := by
  rintro token ⟨⟩
  exact h

theorem Opens.append_ne {text rest rest' : List Token} (h : Opens text) (hrest' : Closes rest') :
    text ++ rest ≠ rest' := by
  rintro rfl
  obtain ⟨token, htoken, hopens⟩ := h
  have hclosed := hrest' token (by
    cases text with
    | nil => cases htoken
    | cons first more => exact htoken)
  rw [hopens] at hclosed
  cases hclosed

theorem Writes.opens {v : Value} {text : List Token} (h : Writes v text) : Opens text := by
  cases h <;> exact ⟨_, rfl, rfl⟩

theorem opens_fieldText (field : (String × Value) × List Token) : Opens (fieldText field) := ⟨_, rfl, rfl⟩

/-! ### One value for a list of tokens -/

/-- A list begins with its first entry. -/
theorem Listed.opens {α : Type} {write : α → List Token} {entries : List α} {body : List Token}
    (h : Listed write entries body) (hne : entries ≠ []) (hopens : ∀ entry ∈ entries, Opens (write entry)) :
    Opens body := by
  cases h with
  | nil => exact absurd rfl hne
  | last entry => exact hopens entry List.mem_cons_self
  | cons entry _ =>
    obtain ⟨token, htoken, hopens⟩ := hopens entry List.mem_cons_self
    refine ⟨token, ?_, hopens⟩
    rw [List.head?_append, Option.mem_def.mp htoken]
    rfl

/-- **Lists that are written alike have the same entries,** if each entry can be told from where it begins. -/
theorem Listed.map_eq {α β : Type} {write : α → List Token} {what : α → β} {t : Terminal} (ht : t.closes)
    (hcomma : t ≠ .comma) {entries : List α} {body : List Token} (h : Listed write entries body) :
    ∀ {entries' : List α} {body' rest rest' : List Token}, Listed write entries' body' →
      (∀ entry ∈ entries, Opens (write entry)) → (∀ entry ∈ entries', Opens (write entry)) →
      (∀ entry ∈ entries, ∀ entry' ∈ entries', ∀ {rest rest'}, Closes rest → Closes rest' →
        write entry ++ rest = write entry' ++ rest' → what entry = what entry' ∧ rest = rest') →
      body ++ .mark t :: rest = body' ++ .mark t :: rest' → entries.map what = entries'.map what ∧ rest = rest' := by
  have hend (rest : List Token) : Closes (.mark t :: rest) := closes_mark ht rest
  have hbetween (rest : List Token) : Closes (.mark .comma :: rest) := closes_mark rfl rest
  induction h with
  | nil =>
    intro entries' body' rest rest' h' _ hopens' _ heq
    by_cases hnil : entries' = []
    · subst hnil
      cases h'
      exact ⟨rfl, (List.cons.inj heq).2⟩
    · exact absurd heq.symm ((h'.opens hnil hopens').append_ne (hend rest))
  | last entry =>
    intro entries' body' rest rest' h' hopens hopens' heach heq
    cases h' with
    | nil => exact absurd heq ((hopens entry List.mem_cons_self).append_ne (hend rest'))
    | last entry' =>
      obtain ⟨hwhat, hrest⟩ := heach entry List.mem_cons_self entry' List.mem_cons_self (hend _) (hend _) heq
      exact ⟨by rw [List.map_singleton, List.map_singleton, hwhat], (List.cons.inj hrest).2⟩
    | @cons entry' more tokens hmore =>
      rw [List.append_assoc] at heq
      obtain ⟨-, hrest⟩ := heach entry List.mem_cons_self entry' List.mem_cons_self (hend _) (hbetween _) heq
      cases (List.cons.inj hrest).1
      exact absurd rfl hcomma
  | @cons entry more tokens hmore ih =>
    intro entries' body' rest rest' h' hopens hopens' heach heq
    rw [List.append_assoc] at heq
    cases h' with
    | nil => exact absurd heq ((hopens entry List.mem_cons_self).append_ne (hend rest'))
    | last entry' =>
      obtain ⟨-, hrest⟩ := heach entry List.mem_cons_self entry' List.mem_cons_self (hbetween _) (hend _) heq
      cases (List.cons.inj hrest).1
      exact absurd rfl hcomma
    | @cons entry' more' tokens' hmore' =>
      rw [List.append_assoc] at heq
      obtain ⟨hwhat, hrest⟩ := heach entry List.mem_cons_self entry' List.mem_cons_self (hbetween _) (hbetween _) heq
      obtain ⟨hentries, hrest⟩ := ih hmore' (fun e he => hopens e (List.mem_cons_of_mem _ he))
        (fun e he => hopens' e (List.mem_cons_of_mem _ he))
        (fun e he e' he' _ _ => heach e (List.mem_cons_of_mem _ he) e' (List.mem_cons_of_mem _ he'))
        (List.cons.inj hrest).2
      exact ⟨by rw [List.map_cons, List.map_cons, hwhat, hentries], hrest⟩

/-- **What is written tells the value and where it ends.** -/
theorem Writes.eq_of_append_eq {v : Value} {text : List Token} (h : Writes v text) :
    ∀ {v' : Value} {text' rest rest' : List Token}, Writes v' text' → Closes rest → Closes rest' →
      text ++ rest = text' ++ rest' → v = v' ∧ rest = rest' := by
  induction h with
  | literal | number | trueWord | falseWord =>
    intro v' text' rest rest' h' _ _ heq
    cases h' <;> simp_all
  | bare name =>
    intro v' text' rest rest' h' hrest hrest' heq
    cases h' <;> simp_all [Closes, Token.terminal, Terminal.closes]
  | @object name fields body hfields hlisted ih =>
    intro v' text' rest rest' h' hrest hrest' heq
    cases h' with
    | bare name' =>
      obtain ⟨-, rfl⟩ := List.cons.inj heq
      cases hrest' _ rfl
    | @object name' fields' body' hfields' hlisted' =>
      simp only [List.cons_append, List.append_assoc, List.nil_append, List.cons.injEq, Token.ident.injEq, true_and]
        at heq
      obtain ⟨rfl, heq⟩ := heq
      have heach : ∀ field ∈ fields, ∀ field' ∈ fields', ∀ {rest rest'}, Closes rest → Closes rest' →
          fieldText field ++ rest = fieldText field' ++ rest' → field.1 = field'.1 ∧ rest = rest' := by
        intro field hfield field' hfield' rest rest' hrest hrest' heq
        simp only [fieldText, List.cons_append, List.cons.injEq, Token.ident.injEq, true_and] at heq
        obtain ⟨hvalue, hrest⟩ := ih field hfield (hfields' field' hfield') hrest hrest' heq.2
        exact ⟨Prod.ext heq.1 hvalue, hrest⟩
      obtain ⟨hwhat, hrest⟩ := hlisted.map_eq rfl (by decide) hlisted' (fun field _ => opens_fieldText field)
        (fun field _ => opens_fieldText field) heach heq
      exact ⟨by rw [hwhat], hrest⟩
    | _ => simp at heq
  | @array items body hitems hlisted ih =>
    intro v' text' rest rest' h' hrest hrest' heq
    cases h' with
    | array hitems' hlisted' =>
      simp only [List.cons_append, List.append_assoc, List.nil_append, List.cons.injEq, true_and] at heq
      obtain ⟨hwhat, hrest⟩ := hlisted.map_eq rfl (by decide) hlisted' (fun item hitem => (hitems item hitem).opens)
        (fun item hitem => (hitems' item hitem).opens)
        (fun item hitem item' hitem' _ _ => ih item hitem (hitems' item' hitem')) heq
      exact ⟨by rw [hwhat], hrest⟩
    | _ => simp at heq
  | experiments h ih =>
    intro v' text' rest rest' h' hrest hrest' heq
    cases h' with
    | experiments h' =>
      obtain ⟨hvalue, hrest⟩ := ih h' hrest hrest' (List.cons.inj heq).2
      cases hvalue
      exact ⟨rfl, hrest⟩
    | _ => simp at heq
  | namedExperiments name h ih =>
    intro v' text' rest rest' h' hrest hrest' heq
    cases h' with
    | namedExperiments name' h' =>
      simp only [List.cons_append, List.cons.injEq, Token.ident.injEq, true_and] at heq
      obtain ⟨rfl, heq⟩ := heq
      obtain ⟨hvalue, hrest⟩ := ih h' hrest hrest' heq
      cases hvalue
      exact ⟨rfl, hrest⟩
    | bare name' =>
      obtain ⟨-, rfl⟩ := List.cons.inj heq
      cases hrest' _ rfl
    | _ => simp at heq

end DragonflyFabric.Language
