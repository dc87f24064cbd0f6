import DragonflyFabric.Proofs.Language.Lexing

/-!
# A lexeme in a longer text

A lexeme is found again in front of more text if nothing of it could go on the lexeme. For words, numbers and names
this is told by the first character that follows, `Lexer.Ends`, and for literals by the literal itself,
`Lexer.Escaped`. The lemmas `lexeme?_…` say so for each kind, and `Lexer.IsName.lexeme?_append` for names: here a
name is what the tokenizer finds to be a single identifier.
-/

namespace DragonflyFabric.Language.Lexer

variable {cs rest : List Char} {tokens : List Token}

/-- What follows does not go on a word or a number. -/
def Ends (rest : List Char) : Prop := ∀ c ∈ rest.head?, isIdentRest c = false ∧ c ≠ '.'

theorem ends_nil : Ends [] := by rintro c ⟨⟩

theorem ends_cons {c : Char} (h : isIdentRest c = false) (hc : c ≠ '.') (rest : List Char) : Ends (c :: rest) := by
  rintro _ ⟨⟩
  exact ⟨h, hc⟩

theorem not_isIdentRest_iff {c : Char} : isIdentRest c = false ↔
    isLetter c = false ∧ (0x80 ≤ c.toNat && c.toNat ≤ 0xff) = false ∧ c.isDigit = false := by
  rw [isIdentRest, isIdentStart, Bool.or_eq_false_iff, Bool.or_eq_false_iff, and_assoc]

namespace Ends

variable (h : Ends rest)

include h

theorem ident : ∀ c ∈ rest.head?, isIdentRest c = false := fun c hc => (h c hc).1

theorem digit : ∀ c ∈ rest.head?, c.isDigit = false := fun c hc => (not_isIdentRest_iff.mp (h c hc).1).2.2

theorem letter : ∀ c ∈ rest.head?, isLetter c = false := fun c hc => (not_isIdentRest_iff.mp (h c hc).1).1

end Ends

theorem takeWhile_append_of_head {p : Char → Bool} (h : ∀ c ∈ rest.head?, p c = false) (cs : List Char) :
    (cs ++ rest).takeWhile p = cs.takeWhile p := by
  induction cs with
  | nil =>
    cases rest with
    | nil => rfl
    | cons c more => rw [List.nil_append, List.takeWhile_cons, h c rfl, if_neg Bool.false_ne_true, List.takeWhile_nil]
  | cons c cs ih => rw [List.cons_append, List.takeWhile_cons, List.takeWhile_cons, ih]

theorem dropWhile_append_of_head {p : Char → Bool} (h : ∀ c ∈ rest.head?, p c = false) (cs : List Char) :
    (cs ++ rest).dropWhile p = cs.dropWhile p ++ rest := by
  induction cs with
  | nil =>
    cases rest with
    | nil => rfl
    | cons c more => rw [List.nil_append, List.dropWhile_cons, h c rfl, if_neg Bool.false_ne_true, List.dropWhile_nil,
        List.nil_append]
  | cons c cs ih =>
    rw [List.cons_append, List.dropWhile_cons, List.dropWhile_cons, ih]
    split <;> rfl

theorem after?_append {word : List Char} (hword : ∀ c ∈ word, isLetter c = true) (h : Ends rest) :
    after? word (cs ++ rest) = (after? word cs).map (· ++ rest) := by
  induction word generalizing cs with
  | nil => rfl
  | cons w word ih =>
    cases cs with
    | nil =>
      cases rest with
      | nil => rfl
      | cons c more =>
        have hletter := hword w List.mem_cons_self
        have hne : w ≠ c := by
          rintro rfl
          rw [h.letter w rfl] at hletter
          cases hletter
        exact if_neg hne
    | cons c cs =>
      rw [List.cons_append, after?, after?, ih fun c hc => hword c (List.mem_cons_of_mem _ hc)]
      split <;> rfl

theorem isLetter_true : ∀ c ∈ "true".toList, isLetter c = true := by simp [isLetter]

theorem isLetter_false : ∀ c ∈ "false".toList, isLetter c = true := by simp [isLetter]

theorem isLetter_where : ∀ c ∈ "where".toList, isLetter c = true := by simp [isLetter]

/-- A keyword is found where it is, and no other one comes about. -/
theorem keyword?_append {word : String} (hword : ∀ c ∈ word.toList, isLetter c = true) (h : Ends rest) :
    keyword? word (cs ++ rest) = (keyword? word cs).map (· ++ rest) := by
  rw [keyword?, keyword?, after?_append hword h]
  cases after? word.toList cs with
  | none => rfl
  | some behind =>
    have hhead : (behind ++ rest).head?.any isLetter = behind.head?.any isLetter := by
      cases behind with
      | nil =>
        cases rest with
        | nil => rfl
        | cons c more => exact h.letter c rfl
      | cons c more => rfl
    dsimp only [Option.map_some]
    rw [hhead]
    split <;> rfl

theorem sign_append (h : cs ≠ []) (rest : List Char) : sign (cs ++ rest) = ((sign cs).1, (sign cs).2 ++ rest) := by
  cases cs with
  | nil => exact absurd rfl h
  | cons c cs =>
    by_cases hc : c = '-'
    · subst hc
      rfl
    · rw [List.cons_append, sign.eq_def, sign.eq_def]
      split
      · next heq => exact absurd (List.cons.inj heq).1 hc
      · split
        · next heq => exact absurd (List.cons.inj heq).1 hc
        · rfl

theorem fraction_append (h : Ends rest) (cs : List Char) : fraction (cs ++ rest) = fraction cs := by
  cases cs with
  | nil =>
    rw [List.nil_append, fraction.eq_def]
    split
    · exact absurd rfl (h '.' rfl).2
    · rfl
  | cons c cs =>
    by_cases hc : c = '.'
    · subst hc
      exact takeWhile_append_of_head h.digit cs
    · rw [fraction.eq_def, fraction.eq_def]
      split
      · next heq => exact absurd (List.cons.inj heq).1 hc
      · split
        · next heq => exact absurd (List.cons.inj heq).1 hc
        · rfl

theorem length_fraction_lt (h : fraction cs ≠ []) : (fraction cs).length < cs.length := by
  unfold fraction at h ⊢
  split
  · next more => exact Nat.lt_succ_of_le (List.takeWhile_sublist _).length_le
  · next hpoint => exact absurd (by split <;> simp_all) h

theorem mantissa?_append (h : Ends rest) (cs : List Char) :
    mantissa? (cs ++ rest) = (mantissa? cs).map fun (whole, digits, behind) => (whole, digits, behind ++ rest) := by
  rw [mantissa?_eq, mantissa?_eq, takeWhile_append_of_head h.digit, dropWhile_append_of_head h.digit,
    fraction_append h]
  by_cases hfraction : fraction (cs.dropWhile Char.isDigit) ≠ []
  · have := length_fraction_lt hfraction
    rw [if_pos hfraction, if_pos hfraction, List.drop_append_of_le_length (by omega)]
    rfl
  · rw [if_neg hfraction, if_neg hfraction]
    split <;> rfl

theorem exponentSign_append (h : cs ≠ []) (rest : List Char) :
    exponentSign (cs ++ rest) = ((exponentSign cs).1, (exponentSign cs).2 ++ rest) := by
  cases cs with
  | nil => exact absurd rfl h
  | cons c cs =>
    by_cases hminus : c = '-'
    · subst hminus
      rfl
    by_cases hplus : c = '+'
    · subst hplus
      rfl
    rw [List.cons_append, exponentSign.eq_def, exponentSign.eq_def]
    split
    · next heq => exact absurd (List.cons.inj heq).1 hminus
    · next heq => exact absurd (List.cons.inj heq).1 hplus
    · split
      · next heq => exact absurd (List.cons.inj heq).1 hminus
      · next heq => exact absurd (List.cons.inj heq).1 hplus
      · rfl

/-- Where a power takes all there is, it takes no more of a longer text. -/
theorem power_append (hp : (power cs).2 = []) (h : Ends rest) : power (cs ++ rest) = ((power cs).1, rest) := by
  cases cs with
  | nil =>
    cases rest with
    | nil => rfl
    | cons c more =>
      have hletter := h.letter c rfl
      have hnone : exponent? (c :: more) = none := by
        rw [exponent?_cons, if_neg]
        rintro (rfl | rfl) <;> cases hletter
      rw [List.nil_append, power, hnone]
      rfl
  | cons e cs =>
    rw [List.cons_append, power, power, exponent?_cons, exponent?_cons] at *
    by_cases he : e = 'e' ∨ e = 'E'
    · rw [if_pos he] at hp
      rw [if_pos he, if_pos he]
      by_cases hdigits : ((exponentSign cs).2.takeWhile Char.isDigit).isEmpty
      · rw [if_pos hdigits] at hp
        cases hp
      · have hne : cs ≠ [] := by
          rintro rfl
          exact hdigits rfl
        rw [if_neg hdigits] at hp
        have hdrop : (exponentSign cs).2.dropWhile Char.isDigit = [] := hp
        rw [exponentSign_append hne, takeWhile_append_of_head h.digit, dropWhile_append_of_head h.digit,
          if_neg hdigits, if_neg hdigits, hdrop]
        rfl
    · rw [if_neg he] at hp
      cases hp

/-- A number that takes a whole text is found in front of what ends it. -/
theorem number?_append {x : Float} (hx : number? cs = some (x, [])) (h : Ends rest) :
    number? (cs ++ rest) = some (x, rest) := by
  have hne : cs ≠ [] := by
    rintro rfl
    cases hx
  rw [number?_eq] at hx ⊢
  obtain ⟨⟨whole, digits, behind⟩, hmantissa, heq⟩ := Option.map_eq_some_iff.mp hx
  obtain ⟨hvalue, hpower⟩ := Prod.mk.inj heq
  rw [sign_append hne, mantissa?_append h, hmantissa, Option.map_some, Option.map_some]
  dsimp only
  rw [power_append hpower h, ← hvalue]

/-- Contents that do not end early: each quote in them stands behind a backslash, and so does something behind each
backslash that is not itself behind one. -/
inductive Escaped : List Char → Prop
  | nil : Escaped []
  | pair (c : Char) {text : List Char} : Escaped text → Escaped ('\\' :: c :: text)
  | plain {c : Char} {text : List Char} : c ≠ '"' → c ≠ '\\' → Escaped text → Escaped (c :: text)

theorem Escaped.contents?_eq {text : List Char} (h : Escaped text) (rest : List Char) :
    contents? (text ++ '"' :: rest) = some text := by
  induction h with
  | nil => rfl
  | pair c _ ih =>
    rw [List.cons_append, List.cons_append, contents?, ih]
    rfl
  | plain hquote hslash _ ih =>
    rw [List.cons_append, contents?.eq_def]
    split
    · next heq => cases heq
    · next heq => exact absurd (List.cons.inj heq).1 hquote
    · next heq => exact absurd (List.cons.inj heq).1 hslash
    · next heq => exact absurd (List.cons.inj heq).1 hslash
    · next heq =>
      obtain ⟨rfl, rfl⟩ := List.cons.inj heq
      rw [ih]
      rfl

/-- Of plain text as many bytes are dropped as it has characters. -/
theorem dropBytes?_ascii {text : List Char} (h : ∀ c ∈ text, c.toNat < 128) (rest : List Char) :
    dropBytes? text.length (text ++ rest) = some rest := by
  induction text with
  | nil =>
    rw [List.nil_append, List.length_nil, dropBytes?.eq_def]
  | cons c text ih =>
    have hsize : c.utf8Size = 1 := Char.utf8Size_eq_one_iff.mpr (by
      have := h c List.mem_cons_self
      rw [Char.toNat] at this
      exact UInt32.le_iff_toNat_le.mpr (Nat.le_of_lt_succ this))
    rw [List.length_cons, List.cons_append, dropBytes?, hsize, if_pos (Nat.le_add_left 1 _), Nat.add_sub_cancel]
    exact ih fun c hc => h c (List.mem_cons_of_mem _ hc)

theorem literal?_append {text : List Char} (hascii : ∀ c ∈ text, c.toNat < 128) (hescaped : Escaped text)
    (rest : List Char) : literal? ('"' :: (text ++ '"' :: rest)) = some (String.ofList text, rest) := by
  have hall : ∀ c ∈ '"' :: (text ++ ['"']), c.toNat < 128 := by
    intro c hc
    simp only [List.mem_cons, List.mem_append, List.not_mem_nil, or_false] at hc
    rcases hc with rfl | hc | rfl
    · decide
    · exact hascii c hc
    · decide
  have hdrop := dropBytes?_ascii hall rest
  rw [List.length_cons, List.length_append, List.length_singleton, List.cons_append, List.append_assoc] at hdrop
  rw [literal?, hescaped.contents?_eq rest]
  dsimp only
  rw [show text.length + 2 = text.length + 1 + 1 from rfl]
  exact congrArg _ hdrop

theorem append_of_ident? {name : String} (h : ident? cs = some (name, rest)) : name.toList ++ rest = cs := by
  rw [ident?.eq_def] at h
  split at h
  · split at h
    · cases h
      rw [String.toList_ofList, List.cons_append, List.takeWhile_append_dropWhile]
    · cases h
  · cases h

theorem ident?_append (hne : cs ≠ []) (h : Ends rest) :
    ident? (cs ++ rest) = (ident? cs).map fun (name, behind) => (name, behind ++ rest) := by
  cases cs with
  | nil => exact absurd rfl hne
  | cons c cs =>
    rw [List.cons_append, ident?, ident?, takeWhile_append_of_head h.ident, dropWhile_append_of_head h.ident]
    split <;> rfl

theorem isLetter_iff {c : Char} : isLetter c = true ↔
    (65 ≤ c.toNat ∧ c.toNat ≤ 90 ∨ 97 ≤ c.toNat ∧ c.toNat ≤ 122) ∨ c = '_' := by
  have hletter : isLetter c = ((decide ('A'.val ≤ c.val ∧ c.val ≤ 'Z'.val) ||
      (decide ('a'.val ≤ c.val) && decide (c.val ≤ 'z'.val))) || decide (c = '_')) := rfl
  simp only [hletter, Bool.or_eq_true, Bool.and_eq_true, decide_eq_true_eq, UInt32.le_iff_toNat_le]
  rfl

theorem of_isIdentStart {c : Char} (h : isIdentStart c = true) : c.isDigit = false ∧ c ≠ '-' ∧ c ≠ '.' ∧ c ≠ '"' := by
  refine ⟨?_, ?_, ?_, ?_⟩
  · rw [Bool.eq_false_iff]
    intro hdigit
    simp only [Char.isDigit, Bool.and_eq_true, decide_eq_true_eq, UInt32.le_iff_toNat_le] at hdigit
    have hnine : c.toNat ≤ 57 := hdigit.2
    simp only [isIdentStart, Bool.or_eq_true, isLetter_iff, Bool.and_eq_true, decide_eq_true_eq] at h
    rcases h with (h | rfl) | h
    · omega
    · exact absurd hnine (by decide)
    · omega
  all_goals
    rintro rfl
    cases h

/-- A number begins with a digit, its sign or its point. -/
theorem number?_eq_none {c : Char} (hdigit : c.isDigit = false) (hminus : c ≠ '-') (hpoint : c ≠ '.') (cs : List Char) :
    number? (c :: cs) = none := by
  have hsign : sign (c :: cs) = (false, c :: cs) := by
    rw [sign.eq_def]
    split
    · next heq => exact absurd (List.cons.inj heq).1 hminus
    · rfl
  have hfraction : fraction (c :: cs) = [] := by
    rw [fraction.eq_def]
    split
    · next heq => exact absurd (List.cons.inj heq).1 hpoint
    · rfl
  rw [number?_eq, hsign, mantissa?_eq]
  dsimp only
  rw [List.takeWhile_cons, List.dropWhile_cons, hdigit, if_neg Bool.false_ne_true, if_neg Bool.false_ne_true, hfraction]
  rfl

theorem number?_of_isIdentStart {c : Char} (h : isIdentStart c = true) (cs : List Char) : number? (c :: cs) = none :=
  have hstart := of_isIdentStart h
  number?_eq_none hstart.1 hstart.2.1 hstart.2.2.1 cs

/-- No number begins with a blank. -/
theorem not_isBlank_of_number? {c : Char} {x : Float} (h : number? (c :: cs) = some (x, rest)) : isBlank c = false := by
  rw [Bool.eq_false_iff]
  intro hblank
  have hdigit : c.isDigit = false := by
    rw [Bool.eq_false_iff]
    intro hdigit
    simp only [Char.isDigit, Bool.and_eq_true, decide_eq_true_eq, UInt32.le_iff_toNat_le] at hdigit
    have hzero : '0'.val.toNat = 48 := rfl
    have hnine : '9'.val.toNat = 57 := rfl
    simp only [isBlank, Char.toNat, Bool.or_eq_true, Bool.and_eq_true, decide_eq_true_eq] at hblank
    omega
  rw [number?_eq_none hdigit (by rintro rfl; cases hblank) (by rintro rfl; cases hblank)] at h
  cases h

theorem literal?_of_isIdentStart {c : Char} (h : isIdentStart c = true) (cs : List Char) :
    literal? (c :: cs) = none := by
  rw [literal?.eq_def]
  split
  · next heq => exact absurd (List.cons.inj heq).1 (of_isIdentStart h).2.2.2
  · rfl

/-- What is a name as far as the tokenizer goes: no keyword, and one identifier from its first character to its last. -/
def IsName (name : String) : Prop := tokens? name.toList = some [.ident name]

theorem of_orElse {α : Type} {first second : Option α} {a : α} (h : (first <|> second) = some a)
    (hne : first ≠ some a) : first = none ∧ second = some a := by
  cases first with
  | none => exact ⟨rfl, h⟩
  | some b => exact absurd h hne

/-- An identifier is found where nothing that is looked for before it is. -/
theorem of_lexeme?_ident {name : String} (h : lexeme? cs = some (some (.ident name), rest)) :
    keyword? "true" cs = none ∧ keyword? "false" cs = none ∧ keyword? "where" cs = none ∧
      ident? cs = some (name, rest) := by
  have hother {α : Type} {found : Option α} {f : α → Option Token × List Char}
      (hf : ∀ a, (f a).1 ≠ some (.ident name)) : found.map f ≠ some (some (.ident name), rest) := by
    intro heq
    obtain ⟨a, -, ha⟩ := Option.map_eq_some_iff.mp heq
    exact hf a (congrArg Prod.fst ha)
  rw [lexeme?] at h
  obtain ⟨htrue, h⟩ := of_orElse h (hother fun a => by simp)
  obtain ⟨hfalse, h⟩ := of_orElse h (hother fun a => by simp)
  obtain ⟨hwhere, h⟩ := of_orElse h (hother fun a => by simp)
  obtain ⟨-, h⟩ := of_orElse h (hother fun a => by simp)
  obtain ⟨-, h⟩ := of_orElse h (hother fun a => by simp)
  refine ⟨Option.map_eq_none_iff.mp htrue, Option.map_eq_none_iff.mp hfalse, Option.map_eq_none_iff.mp hwhere, ?_⟩
  cases hident : ident? cs with
  | some found =>
    rw [hident] at h
    cases h
    rfl
  | none =>
    rw [hident] at h
    obtain ⟨-, h⟩ := of_orElse h (by simp)
    obtain ⟨-, h⟩ := of_orElse h (hother fun a => by simp)
    exact absurd h (hother fun a => by simp)

/-- A text is no shorter than the names in it. -/
theorem Lexes.length_le (h : Lexes cs tokens) {name : String} (hname : .ident name ∈ tokens) :
    name.toList.length ≤ cs.length := by
  induction h with
  | nil => cases hname
  | @cons cs rest token tokens hlexeme _ ih =>
    rcases List.mem_append.mp hname with hname | hname
    · cases Option.mem_toList.mp hname
      have := congrArg List.length (append_of_ident? (of_lexeme?_ident hlexeme).2.2.2)
      rw [List.length_append] at this
      omega
    · exact Nat.le_of_lt (Nat.lt_of_le_of_lt (ih hname) (length_lt_of_lexeme? hlexeme))

theorem IsName.lexeme?_eq {name : String} (h : IsName name) :
    lexeme? name.toList = some (some (.ident name), []) := by
  have hlexes := tokens?_eq_some_iff.mp h
  generalize hcs : name.toList = cs at hlexes
  generalize htokens : [Token.ident name] = tokens at hlexes
  cases hlexes with
  | nil => cases htokens
  | @cons cs rest token tokens hlexeme hrest =>
    have hlt := length_lt_of_lexeme? hlexeme
    cases token with
    | none =>
      -- What is left behind something skipped is too short for the name.
      have hmem : .ident name ∈ tokens := by
        rw [← List.nil_append tokens, ← Option.toList_none, ← htokens]
        exact List.mem_cons_self
      have := hrest.length_le hmem
      rw [hcs] at this
      omega
    | some token =>
      cases htokens
      have := congrArg List.length (append_of_ident? (of_lexeme?_ident hlexeme).2.2.2)
      rw [List.length_append, hcs] at this
      obtain rfl : rest = [] := List.length_eq_zero_iff.mp (by omega)
      exact hlexeme

/-- **A name is found again where it ends.** -/
theorem IsName.lexeme?_append {name : String} (h : IsName name) (hrest : Ends rest) :
    lexeme? (name.toList ++ rest) = some (some (.ident name), rest) := by
  obtain ⟨htrue, hfalse, hwhere, hident⟩ := of_lexeme?_ident h.lexeme?_eq
  have hkeyword {word : String} (hword : ∀ c ∈ word.toList, isLetter c = true)
      (hnone : keyword? word name.toList = none) : keyword? word (name.toList ++ rest) = none := by
    rw [keyword?_append hword hrest, hnone]
    rfl
  have hne : name.toList ≠ [] := by
    intro hnil
    rw [hnil] at hident
    cases hident
  have hfound := ident?_append hne hrest
  rw [hident] at hfound
  generalize name.toList = cs at hkeyword hident hfound htrue hfalse hwhere ⊢
  cases cs with
  | nil => cases hident
  | cons c cs =>
    have hstart : isIdentStart c = true := by
      rw [ident?] at hident
      split at hident
      · assumption
      · cases hident
    rw [List.cons_append] at hkeyword hfound ⊢
    rw [lexeme?, hkeyword isLetter_true htrue, hkeyword isLetter_false hfalse, hkeyword isLetter_where hwhere,
      number?_of_isIdentStart hstart, literal?_of_isIdentStart hstart, hfound]
    rfl

theorem lexeme?_number {x : Float} (hx : number? cs = some (x, [])) (hrest : Ends rest) :
    lexeme? (cs ++ rest) = some (some (.number x), rest) := by
  have hkeyword {word : String} (hword : ∀ c ∈ word.toList, isLetter c = true)
      (hnone : ∀ behind, number? (word.toList ++ behind) = none) : keyword? word (cs ++ rest) = none := by
    rw [keyword?_append hword hrest]
    cases hkey : keyword? word cs with
    | none => rfl
    | some behind =>
      rw [← append_of_keyword? hkey, hnone] at hx
      cases hx
  rw [lexeme?, hkeyword isLetter_true fun _ => rfl, hkeyword isLetter_false fun _ => rfl,
    hkeyword isLetter_where fun _ => rfl, number?_append hx hrest]
  rfl

theorem lexeme?_literal {text : String} (hascii : ∀ c ∈ text.toList, c.toNat < 128) (hescaped : Escaped text.toList)
    (rest : List Char) : lexeme? ('"' :: (text.toList ++ '"' :: rest)) = some (some (.literal text), rest) := by
  have hnumber : ∀ behind, number? ('"' :: behind) = none := fun _ => rfl
  have hkeyword : ∀ behind, keyword? "true" ('"' :: behind) = none ∧ keyword? "false" ('"' :: behind) = none ∧
      keyword? "where" ('"' :: behind) = none := fun _ => ⟨rfl, rfl, rfl⟩
  rw [lexeme?, (hkeyword _).1, (hkeyword _).2.1, (hkeyword _).2.2, hnumber, literal?_append hascii hescaped,
    String.ofList_toList]
  rfl

theorem lexeme?_true (hrest : Ends rest) : lexeme? ("true".toList ++ rest) = some (some (.mark .trueWord), rest) := by
  rw [lexeme?, keyword?_append isLetter_true hrest, show keyword? "true" "true".toList = some [] from rfl]
  rfl

theorem lexeme?_false (hrest : Ends rest) :
    lexeme? ("false".toList ++ rest) = some (some (.mark .falseWord), rest) := by
  rw [lexeme?, keyword?_append isLetter_true hrest, keyword?_append isLetter_false hrest,
    show keyword? "true" "false".toList = none from rfl, show keyword? "false" "false".toList = some [] from rfl]
  rfl

end DragonflyFabric.Language.Lexer
