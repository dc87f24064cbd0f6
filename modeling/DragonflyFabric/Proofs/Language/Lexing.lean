import DragonflyFabric.Language.Lexer
import Mathlib.Data.List.TakeWhile

/-!
# Lexemes one after another

Every lexeme takes at least one character, `Lexer.length_lt_of_lexeme?`. So the tokens of a text can be told without a
count of lexemes: `Lexer.Lexes` puts them together one by one, and is the same as what the tokenizer answers,
`Lexer.tokens?_eq_some_iff`. A text has no tokens exactly if some position is reached that begins no lexeme,
`Lexer.tokens?_eq_none_iff`.
-/

namespace DragonflyFabric.Language.Lexer

variable {cs rest : List Char}

/-! ### Every lexeme takes a character -/

theorem append_of_after? {word : List Char} (h : after? word cs = some rest) : word ++ rest = cs := by
  induction word generalizing cs with
  | nil =>
    cases h
    rfl
  | cons w word ih =>
    cases cs with
    | nil => cases h
    | cons c cs =>
      rw [after?] at h
      split at h
      · next heq => rw [List.cons_append, ih h, heq]
      · cases h

theorem append_of_keyword? {word : String} (h : keyword? word cs = some rest) : word.toList ++ rest = cs := by
  rw [keyword?] at h
  split at h
  · next hafter =>
    split at h
    · cases h
    · cases h
      exact append_of_after? hafter
  · cases h

/-- The sign of an exponent, and what follows it. -/
def exponentSign (cs : List Char) : Bool × List Char :=
  match cs with
  | '-' :: more => (true, more)
  | '+' :: more => (false, more)
  | _ => (false, cs)

theorem exponent?_cons (e : Char) (cs : List Char) :
    exponent? (e :: cs) =
      if e = 'e' ∨ e = 'E' then
        if ((exponentSign cs).2.takeWhile Char.isDigit).isEmpty then none
        else
          some (if (exponentSign cs).1 then -(digitsValue ((exponentSign cs).2.takeWhile Char.isDigit) : Int)
            else digitsValue ((exponentSign cs).2.takeWhile Char.isDigit), (exponentSign cs).2.dropWhile Char.isDigit)
      else none := by
  rw [exponent?.eq_def]
  dsimp only
  by_cases he : e = 'e' ∨ e = 'E'
  · rw [if_pos he, if_pos (by simpa using he)]
    rfl
  · rw [if_neg he, if_neg (by simpa using he)]

theorem length_exponentSign_le (cs : List Char) : (exponentSign cs).2.length ≤ cs.length := by
  unfold exponentSign
  split
  · simp
  · simp
  · exact Nat.le_refl _

theorem length_lt_of_exponent? {power : Int} (h : exponent? cs = some (power, rest)) : rest.length < cs.length := by
  cases cs with
  | nil => cases h
  | cons e cs =>
    rw [exponent?_cons] at h
    split at h
    · split at h
      · cases h
      · cases h
        calc ((exponentSign cs).2.dropWhile Char.isDigit).length
            ≤ (exponentSign cs).2.length := List.length_dropWhile_le _ _
          _ ≤ cs.length := length_exponentSign_le cs
          _ < cs.length + 1 := Nat.lt_succ_self _
    · cases h

/-- The digits behind a point. -/
def fraction : List Char → List Char
  | '.' :: more => more.takeWhile Char.isDigit
  | _ => []

theorem mantissa?_eq (cs : List Char) :
    mantissa? cs =
      if (fraction (cs.dropWhile Char.isDigit)) ≠ [] then
        some (cs.takeWhile Char.isDigit, fraction (cs.dropWhile Char.isDigit),
          (cs.dropWhile Char.isDigit).drop (1 + (fraction (cs.dropWhile Char.isDigit)).length))
      else if cs.takeWhile Char.isDigit ≠ [] then some (cs.takeWhile Char.isDigit, [], cs.dropWhile Char.isDigit)
      else none := by
  show (if !(fraction (cs.dropWhile Char.isDigit)).isEmpty then
      some (cs.takeWhile Char.isDigit, fraction (cs.dropWhile Char.isDigit),
        (cs.dropWhile Char.isDigit).drop (1 + (fraction (cs.dropWhile Char.isDigit)).length))
    else if !(cs.takeWhile Char.isDigit).isEmpty then some (cs.takeWhile Char.isDigit, [], cs.dropWhile Char.isDigit)
    else none) = _
  cases fraction (cs.dropWhile Char.isDigit) <;> cases cs.takeWhile Char.isDigit <;> rfl

theorem length_lt_of_mantissa? {whole digits : List Char} (h : mantissa? cs = some (whole, digits, rest)) :
    rest.length < cs.length := by
  have hsplit := congrArg List.length (List.takeWhile_append_dropWhile (p := Char.isDigit) (l := cs))
  rw [List.length_append] at hsplit
  rw [mantissa?_eq] at h
  split at h
  · next hfraction =>
    cases h
    have hpos : 0 < (cs.dropWhile Char.isDigit).length := by
      refine List.length_pos_iff.mpr fun hnil => hfraction ?_
      rw [hnil]
      rfl
    rw [List.length_drop]
    omega
  · split at h
    · next hwhole =>
      cases h
      have := List.length_pos_iff.mpr hwhole
      omega
    · cases h

/-- The sign of a number, and what follows it. -/
def sign (cs : List Char) : Bool × List Char :=
  match cs with
  | '-' :: more => (true, more)
  | _ => (false, cs)

/-- The power of ten of a number, zero where there is no exponent, and what follows it. -/
def power (cs : List Char) : Int × List Char := (exponent? cs).getD (0, cs)

theorem number?_eq (cs : List Char) :
    number? cs = (mantissa? (sign cs).2).map fun (whole, fraction, rest) =>
      (Decimal.nearest (sign cs).1 (digitsValue (whole ++ fraction)) ((power rest).1 - fraction.length),
        (power rest).2) := by
  rw [number?.eq_def]
  split
  next negative body heq =>
    have hsign : sign cs = (negative, body) := by
      rw [← heq]
      rfl
    rw [hsign]
    cases mantissa? body <;> rfl

theorem length_sign_le (cs : List Char) : (sign cs).2.length ≤ cs.length := by
  unfold sign
  split
  · simp
  · exact Nat.le_refl _

theorem length_power_le (cs : List Char) : (power cs).2.length ≤ cs.length := by
  rw [power]
  cases h : exponent? cs with
  | none => exact Nat.le_refl _
  | some found => exact Nat.le_of_lt (length_lt_of_exponent? h)

theorem length_lt_of_number? {x : Float} (h : number? cs = some (x, rest)) : rest.length < cs.length := by
  rw [number?_eq] at h
  obtain ⟨⟨whole, fraction, behind⟩, hmantissa, heq⟩ := Option.map_eq_some_iff.mp h
  cases heq
  calc (power behind).2.length
      ≤ behind.length := length_power_le behind
    _ < (sign cs).2.length := length_lt_of_mantissa? hmantissa
    _ ≤ cs.length := length_sign_le cs

theorem length_lt_of_dropBytes? {n : Nat} (h : dropBytes? (n + 1) cs = some rest) : rest.length < cs.length := by
  have hle : ∀ (cs : List Char) (n : Nat), dropBytes? n cs = some rest → rest.length ≤ cs.length := by
    intro cs
    induction cs with
    | nil =>
      intro n h
      cases n with
      | zero =>
        cases h
        exact Nat.le_refl _
      | succ n => cases h
    | cons c cs ih =>
      intro n h
      cases n with
      | zero =>
        cases h
        exact Nat.le_refl _
      | succ n =>
        rw [dropBytes?] at h
        split at h
        · exact Nat.le_succ_of_le (ih _ h)
        · cases h
  cases cs with
  | nil => cases h
  | cons c cs =>
    rw [dropBytes?] at h
    split at h
    · exact Nat.lt_succ_of_le (hle cs _ h)
    · cases h

theorem length_lt_of_literal? {text : String} (h : literal? cs = some (text, rest)) : rest.length < cs.length := by
  rw [literal?.eq_def] at h
  split at h
  · split at h
    · cases h
    · obtain ⟨last, hdrop, heq⟩ := Option.map_eq_some_iff.mp h
      cases heq
      exact length_lt_of_dropBytes? hdrop
  · cases h

theorem length_lt_of_ident? {name : String} (h : ident? cs = some (name, rest)) : rest.length < cs.length := by
  rw [ident?.eq_def] at h
  split at h
  · split at h
    · cases h
      exact Nat.lt_succ_of_le (List.length_dropWhile_le _ _)
    · cases h
  · cases h

theorem length_lt_of_mark? {t : Terminal} (h : mark? cs = some (t, rest)) : rest.length < cs.length := by
  unfold mark? at h
  split at h
  all_goals
    cases h <;> simp only [List.length_cons] <;> omega

/-- A block comment ends behind one of the slashes in it. -/
theorem suffix_of_blockEnd? {stars : Nat} {last : Option (List Char)} {text : List Char}
    (hlast : ∀ l ∈ last, l <:+ text) (hcs : cs <:+ text) (h : blockEnd? stars last cs = some rest) : rest <:+ text := by
  induction cs generalizing stars last with
  | nil => exact hlast rest h
  | cons c cs ih =>
    have hbehind : cs <:+ text := (List.suffix_cons c cs).trans hcs
    rw [blockEnd?.eq_def] at h
    split at h
    · next heq => cases heq
    · next heq =>
      cases heq
      exact ih hlast hbehind h
    · next heq =>
      cases heq
      split at h
      · cases h
        exact hbehind
      · refine ih ?_ hbehind h
        split
        · rintro l ⟨⟩
          exact hbehind
        · exact hlast
    · next heq =>
      cases heq
      exact ih hlast hbehind h

theorem length_lt_of_skip? (h : skip? cs = some rest) : rest.length < cs.length := by
  rw [skip?.eq_def] at h
  split at h
  · next body =>
    rw [lineEnd?.eq_def] at h
    split at h
    · cases h
    · next hdrop =>
      cases h
      have := List.length_dropWhile_le (· ≠ '\n') body
      rw [hdrop, List.length_cons] at this
      simp only [List.length_cons]
      omega
  · next body =>
    have := (suffix_of_blockEnd? (by simp) (List.suffix_refl body) h).length_le
    simp only [List.length_cons]
    omega
  · split at h
    · cases h
      exact Nat.lt_succ_of_le (List.length_dropWhile_le _ _)
    · cases h
  · cases h

theorem forall_of_orElse {α : Type} {first second : Option α} {a : α} {p : Prop} (hfirst : first = some a → p)
    (hsecond : second = some a → p) : (first <|> second) = some a → p := by
  cases first with
  | none => exact hsecond
  | some b => exact hfirst

/-- **Every lexeme takes at least one character.** -/
theorem length_lt_of_lexeme? {token : Option Token} (h : lexeme? cs = some (token, rest)) :
    rest.length < cs.length := by
  have hword {word : String} (hpos : 0 < word.toList.length) (h : keyword? word cs = some rest) :
      rest.length < cs.length := by
    have := congrArg List.length (append_of_keyword? h)
    rw [List.length_append] at this
    omega
  revert h
  refine forall_of_orElse ?_ (forall_of_orElse ?_ (forall_of_orElse ?_ (forall_of_orElse ?_
    (forall_of_orElse ?_ (forall_of_orElse ?_ (forall_of_orElse ?_ ?_))))))
  all_goals
    intro h
    obtain ⟨lexeme, hlexeme, heq⟩ := Option.map_eq_some_iff.mp h
    cases heq
  · exact hword (by decide) hlexeme
  · exact hword (by decide) hlexeme
  · exact hword (by decide) hlexeme
  · exact length_lt_of_number? hlexeme
  · exact length_lt_of_literal? hlexeme
  · exact length_lt_of_ident? hlexeme
  · exact length_lt_of_mark? hlexeme
  · exact length_lt_of_skip? hlexeme

/-! ### The tokens of a text -/

/-- The text is these lexemes one after another, and these are the tokens among them. -/
inductive Lexes : List Char → List Token → Prop
  | nil : Lexes [] []
  | cons {cs rest : List Char} {token : Option Token} {tokens : List Token} :
    lexeme? cs = some (token, rest) → Lexes rest tokens → Lexes cs (token.toList ++ tokens)

/-- A position of a text that is reached by lexemes. -/
inductive Reaches : List Char → List Char → Prop
  | here (cs : List Char) : Reaches cs cs
  | step {cs rest last : List Char} {token : Option Token} :
    lexeme? cs = some (token, rest) → Reaches rest last → Reaches cs last

variable {tokens : List Token}

theorem lexes_of_tokensWithin? {limit : Nat} (h : tokensWithin? limit cs = some tokens) : Lexes cs tokens := by
  fun_induction tokensWithin? limit cs generalizing tokens with
  | case1 limit =>
    cases h
    exact .nil
  | case2 => cases h
  | case3 => cases h
  | case4 limit cs _ token rest hlexeme ih =>
    obtain ⟨more, hmore, rfl⟩ := Option.map_eq_some_iff.mp h
    exact .cons hlexeme (ih hmore)

theorem Lexes.tokensWithin?_eq (h : Lexes cs tokens) : ∀ {limit : Nat}, cs.length ≤ limit →
    tokensWithin? limit cs = some tokens := by
  induction h with
  | nil =>
    intro limit _
    cases limit <;> rfl
  | @cons cs rest token tokens hlexeme _ ih =>
    intro limit hlimit
    have hlt := length_lt_of_lexeme? hlexeme
    cases limit with
    | zero => omega
    | succ limit =>
      cases cs with
      | nil => cases hlexeme
      | cons c cs =>
        rw [tokensWithin?, hlexeme]
        · dsimp only
          rw [ih (by omega)]
          rfl
        · exact List.cons_ne_nil c cs

theorem tokens?_eq_some_iff : tokens? cs = some tokens ↔ Lexes cs tokens :=
  ⟨lexes_of_tokensWithin?, fun h => h.tokensWithin?_eq (Nat.le_refl _)⟩

/-- The tokens of a text are what its first lexeme gives and those behind it. -/
theorem tokens?_of_lexeme? {token : Option Token} (h : lexeme? cs = some (token, rest)) :
    tokens? cs = (tokens? rest).map (token.toList ++ ·) := by
  refine Option.ext fun tokens => ?_
  rw [Option.map_eq_some_iff, tokens?_eq_some_iff]
  constructor
  · intro hlexes
    cases hlexes with
    | nil => cases h
    | cons hlexeme hrest =>
      cases h.symm.trans hlexeme
      exact ⟨_, tokens?_eq_some_iff.mpr hrest, rfl⟩
  · rintro ⟨more, hmore, rfl⟩
    exact .cons h (tokens?_eq_some_iff.mp hmore)

/-- **A text has no tokens exactly if a position is reached that begins no lexeme.** -/
theorem tokens?_eq_none_iff : tokens? cs = none ↔ ∃ rest, Reaches cs rest ∧ rest ≠ [] ∧ lexeme? rest = none := by
  constructor
  · suffices h : ∀ {limit : Nat} {cs : List Char}, cs.length ≤ limit → tokensWithin? limit cs = none →
        ∃ rest, Reaches cs rest ∧ rest ≠ [] ∧ lexeme? rest = none from h (Nat.le_refl _)
    intro limit cs hlimit h
    fun_induction tokensWithin? limit cs with
    | case1 => cases h
    | case2 cs hne => exact absurd (List.length_eq_zero_iff.mp (Nat.le_zero.mp hlimit)) hne
    | case3 limit cs hne hnone => exact ⟨cs, .here cs, hne, hnone⟩
    | case4 limit cs _ token rest hlexeme ih =>
      have hlt := length_lt_of_lexeme? hlexeme
      obtain ⟨last, hreaches, hlast⟩ := ih (by omega) (Option.map_eq_none_iff.mp h)
      exact ⟨last, .step hlexeme hreaches, hlast⟩
  · rintro ⟨rest, hreaches, hne, hnone⟩
    cases htokens : tokens? cs with
    | none => rfl
    | some tokens =>
      have hlexes := tokens?_eq_some_iff.mp htokens
      clear htokens
      induction hreaches generalizing tokens with
      | here cs =>
        cases hlexes with
        | nil => exact absurd rfl hne
        | cons hlexeme _ => cases hnone.symm.trans hlexeme
      | step hstep _ ih =>
        cases hlexes with
        | nil => cases hstep
        | cons hlexeme hrest =>
          cases hstep.symm.trans hlexeme
          exact absurd (ih hne hnone _ hrest) (by simp)

end DragonflyFabric.Language.Lexer
