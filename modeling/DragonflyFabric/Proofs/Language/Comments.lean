import DragonflyFabric.Proofs.Language.Literals
import Mathlib.Data.List.DropRight

/-!
# Where a block comment ends

A block comment ends at the first slash behind a single star. A slash behind several stars is the end only if no such
slash is left in the text, and then the last of them is. So whether a comment ends where its end mark is first found
depends on what follows: it does unless its body ends in a star, and then it runs on as soon as some later text holds
an end mark, `Lexer.blockEnd?_body_iff`. Between two texts a comment is skipped accordingly, `Lexer.tokens?_comment`.
-/

namespace DragonflyFabric.Language.Lexer

variable {cs rest front body w : List Char} {last : Option (List Char)} {tokens : List Token}

/-! ### Reading a comment to its end -/

/-- What ends a comment. -/
def endMark : List Char := ['*', '/']

/-- How many stars a text ends in. -/
def starsBehind (cs : List Char) : Nat := (cs.rtakeWhile (· = '*')).length

theorem starsBehind_star (cs : List Char) : starsBehind (cs ++ ['*']) = starsBehind cs + 1 := by
  rw [starsBehind, List.rtakeWhile_concat_pos _ _ _ (by simp), List.length_append]
  rfl

theorem starsBehind_of_ne {c : Char} (h : c ≠ '*') (cs : List Char) : starsBehind (cs ++ [c]) = 0 := by
  rw [starsBehind, List.rtakeWhile_concat_neg _ _ _ (by simpa using h)]
  rfl

theorem starsBehind_eq_zero_iff : starsBehind cs = 0 ↔ cs.getLast? ≠ some '*' := by
  induction cs using List.reverseRecOn with
  | nil => exact iff_of_true rfl (by simp)
  | append_singleton cs c =>
    rw [List.getLast?_concat]
    by_cases hc : c = '*'
    · subst hc
      simp [starsBehind_star]
    · simp [starsBehind_of_ne hc, hc]

theorem blockEnd?_of_ne {c : Char} (hstar : c ≠ '*') (hslash : c ≠ '/') (stars : Nat) (last : Option (List Char))
    (cs : List Char) : blockEnd? stars last (c :: cs) = blockEnd? 0 last cs := by
  rw [blockEnd?.eq_def]
  split
  · next heq => cases heq
  · next heq => exact absurd (List.cons.inj heq).1 hstar
  · next heq => exact absurd (List.cons.inj heq).1 hslash
  · next heq =>
    cases heq
    rfl

/-- Up to its first end mark nothing of a text is remembered but the stars it ends in. -/
theorem blockEnd?_append (h : ¬ endMark <:+: cs) (last : Option (List Char)) (w : List Char) :
    blockEnd? 0 last (cs ++ w) = blockEnd? (starsBehind cs) last w := by
  induction cs using List.reverseRecOn generalizing w with
  | nil => rfl
  | append_singleton cs c ih =>
    rw [List.append_assoc, List.singleton_append, ih fun hmark => h (hmark.trans (List.prefix_append cs [c]).isInfix)]
    by_cases hstar : c = '*'
    · subst hstar
      rw [blockEnd?, starsBehind_star]
    · rw [starsBehind_of_ne hstar]
      by_cases hslash : c = '/'
      · subst hslash
        have hzero : starsBehind cs = 0 := by
          refine starsBehind_eq_zero_iff.mpr fun hlast => h ?_
          obtain ⟨front, rfl⟩ := List.getLast?_eq_some_iff.mp hlast
          exact ⟨front, [], by simp [endMark]⟩
        rw [blockEnd?, hzero, if_neg (by decide), if_neg (by decide)]
      · exact blockEnd?_of_ne hstar hslash _ _ _

/-- At its first end mark a comment ends, or runs on. -/
theorem blockEnd?_endMark (h : ¬ endMark <:+: body) (last : Option (List Char)) (w : List Char) :
    blockEnd? 0 last (body ++ endMark ++ w) =
      if body.getLast? = some '*' then blockEnd? 0 (some w) w else some w := by
  rw [List.append_assoc, blockEnd?_append h]
  show blockEnd? _ _ ('*' :: '/' :: w) = _
  rw [blockEnd?, blockEnd?]
  split
  · next hone => rw [if_neg (starsBehind_eq_zero_iff.mp (Nat.succ.inj hone))]
  · next hmany =>
    have hpos : starsBehind body ≠ 0 := fun hzero => hmany (congrArg Nat.succ hzero)
    rw [if_pos (by omega), if_pos (not_not.mp (mt starsBehind_eq_zero_iff.mpr hpos))]

theorem blockEnd?_of_not_endMark (h : ¬ endMark <:+: cs) (last : Option (List Char)) : blockEnd? 0 last cs = last := by
  rw [← List.append_nil cs, blockEnd?_append h, blockEnd?]

/-- Whatever stands in front of it, a text is read either not at all or with some end mark in mind. -/
theorem blockEnd?_front (last : Option (List Char)) (front : List Char) :
    (∃ rest, rest.length < front.length ∧ rest <:+ front ∧ ∀ w, blockEnd? 0 last (front ++ w) = some (rest ++ w)) ∨
      ∃ last' : List Char → Option (List Char), ∀ w, blockEnd? 0 last (front ++ w) =
        blockEnd? (starsBehind front) (last' w) w := by
  induction front using List.reverseRecOn with
  | nil => exact .inr ⟨fun _ => last, fun _ => rfl⟩
  | append_singleton front c ih =>
    rcases ih with ⟨rest, hlength, ⟨before, hsuffix⟩, hrest⟩ | ⟨last', hlast⟩
    · refine .inl ⟨rest ++ [c], by simpa using hlength, ⟨before, by rw [← List.append_assoc, hsuffix]⟩, fun w => ?_⟩
      rw [List.append_assoc, List.append_assoc, hrest]
    · have hread w : blockEnd? 0 last (front ++ [c] ++ w) = blockEnd? (starsBehind front) (last' (c :: w)) (c :: w) := by
        rw [List.append_assoc, List.singleton_append, hlast]
      by_cases hstar : c = '*'
      · subst hstar
        refine .inr ⟨fun w => last' ('*' :: w), fun w => ?_⟩
        rw [hread, blockEnd?, starsBehind_star]
      by_cases hslash : c = '/'
      · subst hslash
        by_cases hone : starsBehind front = 1
        · refine .inl ⟨[], by simp, List.nil_suffix, fun w => ?_⟩
          rw [hread, blockEnd?, if_pos hone]
          rfl
        · refine .inr ⟨fun w => if 2 ≤ starsBehind front then some w else last' ('/' :: w), fun w => ?_⟩
          rw [hread, blockEnd?, if_neg hone, starsBehind_of_ne hstar]
      · refine .inr ⟨fun w => last' (c :: w), fun w => ?_⟩
        rw [hread, blockEnd?_of_ne hstar hslash, starsBehind_of_ne hstar]

/-- Once a slash has been kept in mind, there is some end. -/
theorem exists_of_last (stars : Nat) (l cs : List Char) : ∃ rest, blockEnd? stars (some l) cs = some rest := by
  induction cs generalizing stars l with
  | nil => exact ⟨l, rfl⟩
  | cons c cs ih =>
    by_cases hstar : c = '*'
    · subst hstar
      exact ih (stars + 1) l
    by_cases hslash : c = '/'
    · subst hslash
      rw [blockEnd?]
      split
      · exact ⟨cs, rfl⟩
      · split
        · exact ih 0 cs
        · exact ih 0 l
    · rw [blockEnd?_of_ne hstar hslash]
      exact ih 0 l

/-- With an end mark left, a comment that runs on takes it. -/
theorem exists_of_endMark (h : endMark <:+: cs) (last : Option (List Char)) :
    ∃ rest, rest <:+ cs ∧ rest ≠ cs ∧ blockEnd? 0 last cs = some rest := by
  obtain ⟨front, behind, rfl⟩ := h
  rw [List.append_assoc]
  rcases blockEnd?_front last front with ⟨rest, hlength, ⟨before, hsuffix⟩, hrest⟩ | ⟨last', hlast⟩
  · refine ⟨rest ++ (endMark ++ behind), ⟨before, by rw [← List.append_assoc, hsuffix]⟩, fun heq => ?_, hrest _⟩
    exact Nat.ne_of_lt hlength (congrArg List.length (List.append_cancel_right heq))
  · suffices h : ∃ rest, rest <:+ behind ∧ blockEnd? 0 last (front ++ (endMark ++ behind)) = some rest by
      obtain ⟨rest, hsuffix, hrest⟩ := h
      refine ⟨rest, hsuffix.trans ⟨front ++ endMark, by rw [List.append_assoc]⟩, fun heq => ?_, hrest⟩
      have := hsuffix.length_le
      rw [heq, List.length_append, List.length_append] at this
      simp only [endMark, List.length_cons] at this
      omega
    rw [hlast]
    show ∃ rest, _ ∧ blockEnd? _ _ ('*' :: '/' :: behind) = some rest
    rw [blockEnd?, blockEnd?]
    split
    · exact ⟨behind, List.suffix_refl _, rfl⟩
    · rw [if_pos (by omega)]
      obtain ⟨rest, hrest⟩ := exists_of_last 0 behind behind
      exact ⟨rest, suffix_of_blockEnd? (by simp) (List.suffix_refl _) hrest, hrest⟩

/-- The body of a comment that ends at a single star. -/
def Closes (body : List Char) : Prop :=
  ∃ front behind, body = front ++ endMark ++ behind ∧ front.getLast? ≠ some '*'

/-- A comment that ends at a single star ends there whatever follows. -/
theorem Closes.blockEnd?_append (h : Closes body) (hrest : blockEnd? 0 none body = some rest) (w : List Char) :
    blockEnd? 0 none (body ++ w) = some (rest ++ w) := by
  obtain ⟨front, behind, rfl, hlast⟩ := h
  have hzero := starsBehind_eq_zero_iff.mpr hlast
  rw [List.append_assoc] at hrest
  rw [List.append_assoc, List.append_assoc]
  rcases blockEnd?_front none front with ⟨rest', -, -, hfront⟩ | ⟨last', hfront⟩
  · rw [hfront] at hrest ⊢
    cases hrest
    simp only [List.append_assoc]
  · have hend (x : List Char) : blockEnd? 0 none (front ++ (endMark ++ x)) = some x := by
      rw [hfront, hzero]
      rfl
    rw [hend] at hrest
    cases hrest
    exact hend _

/-! ### Lexemes in front of a space -/

theorem ends_space (w : List Char) : Ends (' ' :: w) := ends_cons rfl (by decide) w

theorem power_space (cs w : List Char) : power (cs ++ ' ' :: w) = ((power cs).1, (power cs).2 ++ ' ' :: w) := by
  cases cs with
  | nil => rfl
  | cons e cs =>
    rw [List.cons_append, power, power, exponent?_cons, exponent?_cons]
    have hsign : exponentSign (cs ++ ' ' :: w) = ((exponentSign cs).1, (exponentSign cs).2 ++ ' ' :: w) := by
      cases cs with
      | nil => rfl
      | cons c cs => exact exponentSign_append (List.cons_ne_nil c cs) _
    rw [hsign, takeWhile_append_of_head (ends_space w).digit, dropWhile_append_of_head (ends_space w).digit]
    split
    · split <;> rfl
    · rfl

theorem number?_space (hne : cs ≠ []) (w : List Char) :
    number? (cs ++ ' ' :: w) = (number? cs).map fun (x, rest) => (x, rest ++ ' ' :: w) := by
  rw [number?_eq, number?_eq, sign_append hne, mantissa?_append (ends_space w), Option.map_map, Option.map_map]
  refine Option.map_congr fun found _ => ?_
  simp only [Function.comp_apply, power_space]

theorem contents?_append {text : List Char} (h : contents? cs = some text) (w : List Char) :
    contents? (cs ++ w) = some text := by
  fun_induction contents? cs generalizing text with
  | case1 => cases h
  | case2 => exact h
  | case3 c rest ih =>
    obtain ⟨more, hmore, rfl⟩ := Option.map_eq_some_iff.mp h
    rw [List.cons_append, List.cons_append, contents?, ih hmore]
    rfl
  | case4 => cases h
  | case5 c rest hquote hpair hlast ih =>
    have hslash : c ≠ '\\' := by
      cases rest with
      | nil => exact fun hc => hlast hc rfl
      | cons d rest => exact fun hc => hpair d rest hc rfl
    obtain ⟨more, hmore, rfl⟩ := Option.map_eq_some_iff.mp h
    rw [List.cons_append, contents?.eq_def]
    split <;> simp_all

theorem dropBytes?_append {n : Nat} (h : dropBytes? n cs = some rest) (w : List Char) :
    dropBytes? n (cs ++ w) = some (rest ++ w) := by
  induction cs generalizing n with
  | nil =>
    cases n with
    | zero =>
      cases h
      rw [dropBytes?.eq_def]
    | succ n => cases h
  | cons c cs ih =>
    cases n with
    | zero =>
      cases h
      rfl
    | succ n =>
      rw [dropBytes?] at h
      rw [List.cons_append, dropBytes?]
      split at h
      · next hle => rw [if_pos hle, ih h]
      · cases h

theorem literal?_append_right {text : String} (h : literal? cs = some (text, rest)) (w : List Char) :
    literal? (cs ++ w) = some (text, rest ++ w) := by
  rw [literal?.eq_def] at h
  split at h
  · next more =>
    split at h
    · cases h
    · next contents hcontents =>
      obtain ⟨behind, hdrop, heq⟩ := Option.map_eq_some_iff.mp h
      cases heq
      rw [List.cons_append, literal?, contents?_append hcontents]
      dsimp only
      rw [← List.cons_append, dropBytes?_append hdrop]
      rfl
  · cases h

theorem mark?_equal (h : cs.head? ≠ some '=') : mark? ('=' :: cs) = some (.equal, cs) := by
  rw [mark?.eq_def]
  split <;> simp_all

theorem mark?_space (hne : cs ≠ []) (w : List Char) :
    mark? (cs ++ ' ' :: w) = (mark? cs).map fun (terminal, rest) => (terminal, rest ++ ' ' :: w) := by
  cases cs with
  | nil => exact absurd rfl hne
  | cons c cs =>
    by_cases hc : c = '='
    · subst hc
      cases cs with
      | nil => rfl
      | cons d cs =>
        by_cases hd : d = '='
        · subst hd
          rfl
        · rw [mark?_equal (by simpa using hd), List.cons_append, mark?_equal (by simpa using hd)]
          rfl
    · unfold mark?
      split <;> simp_all

/-- The token at the front of a text. -/
def word? (cs : List Char) : Option (Token × List Char) :=
  ((keyword? "true" cs).map fun rest => (.mark .trueWord, rest))
  <|> ((keyword? "false" cs).map fun rest => (.mark .falseWord, rest))
  <|> ((keyword? "where" cs).map fun rest => (.mark .whereWord, rest))
  <|> ((number? cs).map fun (value, rest) => (.number value, rest))
  <|> ((literal? cs).map fun (text, rest) => (.literal text, rest))
  <|> ((ident? cs).map fun (name, rest) => (.ident name, rest))
  <|> ((mark? cs).map fun (terminal, rest) => (.mark terminal, rest))

theorem lexeme?_eq (cs : List Char) : lexeme? cs =
    (((word? cs).map fun (token, rest) => (some token, rest)) <|> ((skip? cs).map fun rest => (none, rest))) := by
  simp only [lexeme?, word?, Option.orElse_eq_orElse, Option.orElse_eq_or, Option.map_or, Option.map_map, Option.or_assoc]
  rfl

theorem lexeme?_of_word?_eq_none (h : word? cs = none) : lexeme? cs = (skip? cs).map fun rest => (none, rest) := by
  rw [lexeme?_eq, h]
  rfl

theorem literal?_eq_none (h : cs.head? ≠ some '"') : literal? cs = none := by
  rw [literal?.eq_def]
  split
  · exact absurd rfl h
  · rfl

theorem literal?_space (hne : cs ≠ []) (hquote : cs.head? = some '"' → literal? cs ≠ none) (w : List Char) :
    literal? (cs ++ ' ' :: w) = (literal? cs).map fun (text, rest) => (text, rest ++ ' ' :: w) := by
  cases hliteral : literal? cs with
  | some found => exact literal?_append_right hliteral _
  | none =>
    cases cs with
    | nil => exact absurd rfl hne
    | cons c cs => exact literal?_eq_none fun hhead => hquote hhead hliteral

/-- In front of a space the same token is found, a literal without its end apart. -/
theorem word?_space (hne : cs ≠ []) (hquote : cs.head? = some '"' → literal? cs ≠ none) (w : List Char) :
    word? (cs ++ ' ' :: w) = (word? cs).map fun (token, rest) => (token, rest ++ ' ' :: w) := by
  have hspace := ends_space w
  rw [word?, word?, keyword?_append isLetter_true hspace, keyword?_append isLetter_false hspace,
    keyword?_append isLetter_where hspace, number?_space hne, literal?_space hne hquote, ident?_append hne hspace,
    mark?_space hne]
  simp only [Option.orElse_eq_orElse, Option.orElse_eq_or, Option.map_or, Option.map_map]
  rfl

theorem skip?_of_isBlank {c : Char} (h : isBlank c = true) (cs : List Char) :
    skip? (c :: cs) = some (cs.dropWhile isBlank) := by
  rw [skip?.eq_def]
  split
  · next heq =>
    cases heq
    cases h
  · next heq =>
    cases heq
    cases h
  · next heq =>
    cases heq
    rw [if_pos h]
  · next heq => cases heq

/-- In front of a space as much is skipped, and the space too where blanks are skipped to the end. -/
theorem skip?_space (h : skip? cs = some rest) (hclosed : ∀ body, cs = '/' :: '*' :: body → Closes body)
    (hw : ∀ c ∈ w.head?, isBlank c = false) :
    skip? (cs ++ ' ' :: w) = some (rest ++ ' ' :: w) ∨ rest = [] ∧ skip? (cs ++ ' ' :: w) = some w := by
  rw [skip?.eq_def] at h
  split at h
  · next body =>
    left
    rw [lineEnd?] at h
    show lineEnd? (body ++ ' ' :: w) = _
    rw [lineEnd?, List.dropWhile_append]
    split at h
    · cases h
    · next hdrop =>
      cases h
      rw [hdrop]
      rfl
  · next body => exact .inl ((hclosed body rfl).blockEnd?_append h _)
  · next c more _ _ =>
    split at h
    · next hblank =>
      cases h
      rw [List.cons_append, skip?_of_isBlank hblank, List.dropWhile_append]
      split
      · next hnil =>
        exact .inr ⟨List.isEmpty_iff.mp hnil, congrArg some (dropWhile_append_of_head hw [])⟩
      · exact .inl rfl
    · cases h
  · cases h

theorem lexeme?_append_space {token : Option Token} (h : lexeme? cs = some (token, rest))
    (hclosed : ∀ body, cs = '/' :: '*' :: body → Closes body) (hw : ∀ c ∈ w.head?, isBlank c = false) :
    lexeme? (cs ++ ' ' :: w) = some (token, rest ++ ' ' :: w) ∨
      token = none ∧ rest = [] ∧ lexeme? (cs ++ ' ' :: w) = some (none, w) := by
  have hne : cs ≠ [] := by
    rintro rfl
    cases h
  have hquote : cs.head? = some '"' → literal? cs ≠ none := by
    intro hhead hnone
    obtain ⟨more, rfl⟩ := List.head?_eq_some_iff.mp hhead
    rw [lexeme?_quote, hnone] at h
    cases h
  have hspace := word?_space hne hquote w
  cases hword : word? cs with
  | some found =>
    rw [lexeme?_eq, hword] at h
    rw [hword] at hspace
    rw [lexeme?_eq, hspace]
    cases h
    exact .inl rfl
  | none =>
    rw [lexeme?_of_word?_eq_none hword] at h
    rw [hword] at hspace
    rw [lexeme?_of_word?_eq_none hspace]
    obtain ⟨behind, hskip, heq⟩ := Option.map_eq_some_iff.mp h
    cases heq
    rcases skip?_space hskip hclosed hw with hfound | ⟨hnil, hfound⟩
    · exact .inl (by rw [hfound]; rfl)
    · exact .inr ⟨rfl, hnil, by rw [hfound]; rfl⟩

theorem keyword?_eq_none {word : String} {c : Char} (hword : ∀ c ∈ word.toList, isLetter c = true)
    (hne : word.toList ≠ []) (hstart : isIdentStart c = false) (cs : List Char) : keyword? word (c :: cs) = none := by
  cases hkeyword : keyword? word (c :: cs) with
  | none => rfl
  | some rest =>
    have happend := append_of_keyword? hkeyword
    cases hlist : word.toList with
    | nil => exact absurd hlist hne
    | cons d more =>
      rw [hlist] at hword happend
      cases happend
      rw [isIdentStart, hword c List.mem_cons_self] at hstart
      cases hstart

/-- A blank begins no token, unless it is one of those that are letters too. -/
theorem word?_of_isBlank {c : Char} (h : isBlank c = true) (hstart : isIdentStart c = false) (cs : List Char) :
    word? (c :: cs) = none := by
  have hnumber : number? (c :: cs) = none := by
    cases hfound : number? (c :: cs) with
    | none => rfl
    | some found =>
      rw [not_isBlank_of_number? hfound] at h
      cases h
  have hliteral : literal? (c :: cs) = none := by
    refine literal?_eq_none fun hhead => ?_
    cases hhead
    cases h
  have hident : ident? (c :: cs) = none := by
    rw [ident?, if_neg (by rw [hstart]; exact Bool.false_ne_true)]
  have hmark : mark? (c :: cs) = none := by
    unfold mark?
    split
    all_goals first
      | rfl
      | next heq =>
        cases heq
        cases h
  have hkeyword {word : String} (hword : ∀ c ∈ word.toList, isLetter c = true) (hne : word.toList ≠ []) :
      keyword? word (c :: cs) = none := keyword?_eq_none hword hne hstart cs
  rw [word?, hkeyword isLetter_true (by simp), hkeyword isLetter_false (by simp), hkeyword isLetter_where (by simp),
    hnumber, hliteral, hident, hmark]
  rfl

/-- Blanks in front of a text are skipped. -/
theorem tokens?_blanks (w : List Char) : tokens? (' ' :: w) = tokens? (w.dropWhile isBlank) := by
  rw [tokens?_of_lexeme? (show lexeme? (' ' :: w) = some (none, w.dropWhile isBlank) from rfl)]
  exact Option.map_id'

/-- A text keeps its tokens in front of a space. -/
theorem tokens?_append_space (h : tokens? cs = some tokens)
    (hclosed : ∀ body, Reaches cs ('/' :: '*' :: body) → Closes body) (hw : ∀ c ∈ w.head?, isBlank c = false) :
    tokens? (cs ++ ' ' :: w) = (tokens? w).map (tokens ++ ·) := by
  have hlexes := tokens?_eq_some_iff.mp h
  clear h
  induction hlexes with
  | nil =>
    rw [List.nil_append, tokens?_blanks, show w.dropWhile isBlank = w from dropWhile_append_of_head hw []]
    exact Option.map_id'.symm
  | @cons cs rest token tokens hlexeme hrest ih =>
    have hclosed' := fun body hreach => hclosed body (.step hlexeme hreach)
    rcases lexeme?_append_space hlexeme (fun body heq => hclosed body (heq ▸ .here cs)) hw with
      hfound | ⟨rfl, rfl, hfound⟩
    · rw [tokens?_of_lexeme? hfound, ih hclosed', Option.map_map]
      refine Option.map_congr fun more _ => ?_
      rw [Function.comp_apply, List.append_assoc]
    · cases hrest with
      | nil =>
        rw [tokens?_of_lexeme? hfound]
        rfl
      | cons hlexeme _ => cases hlexeme

/-! ### A comment between two texts -/

/-- A block comment of this body. -/
def comment (body : List Char) : List Char := '/' :: '*' :: (body ++ endMark)

/-- **A comment ends at the end mark behind its body, unless its body ends in a star and an end mark follows.** -/
theorem blockEnd?_body_iff (h : ¬ endMark <:+: body) (w : List Char) :
    blockEnd? 0 none (body ++ endMark ++ w) = some w ↔ body.getLast? ≠ some '*' ∨ ¬ endMark <:+: w := by
  rw [blockEnd?_endMark h]
  split
  · next hstar =>
    constructor
    · intro hend
      refine .inr fun hmark => ?_
      obtain ⟨rest, -, hne, hrest⟩ := exists_of_endMark hmark (some w)
      exact hne (Option.some.inj (hrest.symm.trans hend))
    · rintro (hne | hnone)
      · exact absurd hstar hne
      · exact blockEnd?_of_not_endMark hnone _
  · next hstar => exact iff_of_true rfl (.inl hstar)

theorem tokens?_of_blockEnd? (h : tokens? cs = some tokens)
    (hclosed : ∀ body, Reaches cs ('/' :: '*' :: body) → Closes body)
    (hend : blockEnd? 0 none (body ++ endMark ++ w) = some rest) :
    tokens? (cs ++ ' ' :: (comment body ++ w)) = (tokens? rest).map (tokens ++ ·) := by
  have hlexeme : lexeme? (comment body ++ w) = some (none, rest) := by
    have hword : word? (comment body ++ w) = none := rfl
    have hskip : skip? (comment body ++ w) = blockEnd? 0 none (body ++ endMark ++ w) := rfl
    rw [lexeme?_of_word?_eq_none hword, hskip, hend]
    rfl
  have hhead : ∀ c ∈ (comment body ++ w).head?, isBlank c = false := by
    rintro _ ⟨⟩
    rfl
  rw [tokens?_append_space h hclosed hhead, tokens?_of_lexeme? hlexeme]
  exact congrArg _ Option.map_id'

theorem tokens?_space (h : ∀ c ∈ cs.head?, isBlank c = true → isIdentStart c = false) :
    tokens? (' ' :: cs) = tokens? cs := by
  rw [tokens?_blanks]
  cases cs with
  | nil => rfl
  | cons c cs =>
    rw [List.dropWhile_cons]
    split
    · next hblank =>
      have hlexeme : lexeme? (c :: cs) = some (none, cs.dropWhile isBlank) := by
        rw [lexeme?_of_word?_eq_none (word?_of_isBlank hblank (h c rfl hblank) cs), skip?_of_isBlank hblank]
        rfl
      rw [tokens?_of_lexeme? hlexeme]
      exact Option.map_id'.symm
    · rfl

/-- **A block comment between two texts is skipped, unless its body ends in a star and the text behind it holds an end
mark:** then the comment runs on, and some of that text has no tokens. The text in front may itself hold comments, as
long as they end at a single star. In front of the text behind, the space is skipped too, and with it a first character
that is both a blank and a letter. -/
theorem tokens?_comment {u v : List Char} (hu : tokens? u = some tokens)
    (hclosed : ∀ body, Reaches u ('/' :: '*' :: body) → Closes body) (hbody : ¬ endMark <:+: body) :
    (body.getLast? ≠ some '*' ∨ ¬ endMark <:+: v →
      tokens? (u ++ ' ' :: (comment body ++ ' ' :: v)) = (tokens? (' ' :: v)).map (tokens ++ ·)) ∧
    (body.getLast? = some '*' → endMark <:+: v →
      ∃ w, w <:+ v ∧ w ≠ v ∧ tokens? (u ++ ' ' :: (comment body ++ ' ' :: v)) = (tokens? w).map (tokens ++ ·)) ∧
    ((∀ c ∈ v.head?, isBlank c = true → isIdentStart c = false) → tokens? (' ' :: v) = tokens? v) := by
  refine ⟨fun hend => ?_, fun hstar hmark => ?_, tokens?_space⟩
  · refine tokens?_of_blockEnd? hu hclosed ((blockEnd?_body_iff hbody _).mpr (hend.imp_right fun hnone hmark => ?_))
    rcases List.infix_cons_iff.mp hmark with hprefix | hmark
    · cases (List.cons_prefix_cons.mp hprefix).1
    · exact hnone hmark
  · obtain ⟨w, hsuffix, hne, hrest⟩ := exists_of_endMark hmark (some (' ' :: v))
    refine ⟨w, hsuffix, hne, tokens?_of_blockEnd? hu hclosed ?_⟩
    rw [blockEnd?_endMark hbody, if_pos hstar]
    exact hrest

/-- A comment behind a text that ends in a comment itself. -/
theorem tokens?_comment_behind : tokens? "a/**/".toList = some [.ident "a"] ∧
    (∀ body, Reaches "a/**/".toList ('/' :: '*' :: body) → Closes body) ∧ ¬ endMark <:+: " b ".toList ∧
    " b ".toList.getLast? ≠ some '*' ∧
    tokens? ("a/**/".toList ++ ' ' :: (comment " b ".toList ++ ' ' :: "c".toList)) = some [.ident "a", .ident "c"] := by
  have hu : tokens? "a/**/".toList = some [.ident "a"] := rfl
  have hclosed : ∀ body, Reaches "a/**/".toList ('/' :: '*' :: body) → Closes body := by
    intro body hreach
    cases hreach with
    | step hlexeme hreach =>
      cases hlexeme
      cases hreach with
      | here => exact ⟨[], [], rfl, by decide⟩
      | step hlexeme hreach =>
        cases hlexeme
        cases hreach with
        | step hlexeme _ => cases hlexeme
  refine ⟨hu, hclosed, by decide, by decide, ?_⟩
  rw [(tokens?_comment hu hclosed (by decide)).1 (.inl (by decide))]
  rfl

/-- **A comment whose body is a star swallows what stands in front of the next end mark.** -/
theorem tokens?_comment_star : tokens? "a".toList = some [.ident "a"] ∧ tokens? "b/**/".toList = some [.ident "b"] ∧
    ¬ endMark <:+: "*".toList ∧
    tokens? ("a".toList ++ ' ' :: (comment "*".toList ++ ' ' :: "b/**/".toList)) = some [.ident "a"] :=
  ⟨rfl, rfl, by decide, rfl⟩

end DragonflyFabric.Language.Lexer
