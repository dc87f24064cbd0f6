import DragonflyFabric.Proofs.Language.Lexemes

/-!
# Where a literal ends

A quote begins a literal or nothing. The contents of a literal end at the next quote that is not escaped, but the text
goes on as many bytes later as the literal has characters. For plain text this is the place behind the closing quote.
For any other it lies before: within a character, or in front of a tail of the literal, which is then read once more,
`Lexer.tokens?_literal`. So a literal is a single lexeme exactly if it is plain text, `Lexer.lexeme?_literal_iff`.
-/

namespace DragonflyFabric.Language.Lexer

variable {contents rest : List Char}

/-- A quote begins nothing but a literal. -/
theorem lexeme?_quote (cs : List Char) :
    lexeme? ('"' :: cs) = (literal? ('"' :: cs)).map fun (text, rest) => (some (.literal text), rest) := by
  have hnumber : number? ('"' :: cs) = none := rfl
  have hkeyword : keyword? "true" ('"' :: cs) = none ∧ keyword? "false" ('"' :: cs) = none ∧
      keyword? "where" ('"' :: cs) = none := ⟨rfl, rfl, rfl⟩
  rw [lexeme?, hkeyword.1, hkeyword.2.1, hkeyword.2.2, hnumber]
  cases literal? ('"' :: cs) <;> rfl

theorem escaped_of_plain (h : ∀ c ∈ contents, c ≠ '"' ∧ c ≠ '\\') : Escaped contents := by
  induction contents with
  | nil => exact .nil
  | cons c contents ih =>
    obtain ⟨hquote, hslash⟩ := h c List.mem_cons_self
    exact .plain hquote hslash (ih fun c hc => h c (List.mem_cons_of_mem _ hc))

theorem literal?_eq (h : Escaped contents) (rest : List Char) :
    literal? ('"' :: (contents ++ '"' :: rest)) =
      (dropBytes? (contents.length + 2) ('"' :: (contents ++ '"' :: rest))).map (String.ofList contents, ·) := by
  rw [literal?, h.contents?_eq rest]

/-- With as many bytes as there are characters at most, no more than the text is dropped, and all of it only if it is
plain. -/
theorem exists_tail_of_dropBytes? {text cs : List Char} {n : Nat} (hn : n ≤ text.length)
    (h : dropBytes? n (text ++ rest) = some cs) : ∃ tail, tail <:+ text ∧ cs = tail ++ rest ∧
      (tail = [] → n = text.length ∧ ∀ c ∈ text, c.toNat < 128) := by
  induction text generalizing n with
  | nil =>
    obtain rfl : n = 0 := Nat.le_zero.mp hn
    rw [dropBytes?.eq_def] at h
    cases h
    exact ⟨[], List.suffix_refl _, rfl, by simp⟩
  | cons c text ih =>
    cases n with
    | zero =>
      cases h
      exact ⟨c :: text, List.suffix_refl _, rfl, by simp⟩
    | succ n =>
      rw [List.cons_append, dropBytes?] at h
      split at h
      · next hle =>
        have hpos := c.utf8Size_pos
        rw [List.length_cons] at hn
        obtain ⟨tail, hsuffix, hcs, hall⟩ := ih (by omega) h
        refine ⟨tail, hsuffix.trans (List.suffix_cons _ _), hcs, fun hnil => ?_⟩
        obtain ⟨hlength, hplain⟩ := hall hnil
        have hsize : c.utf8Size = 1 := by omega
        refine ⟨by rw [List.length_cons]; omega, fun d hd => ?_⟩
        rcases List.mem_cons.mp hd with rfl | hd
        · have hle := UInt32.le_iff_toNat_le.mp (Char.utf8Size_eq_one_iff.mp hsize)
          exact Nat.lt_succ_of_le hle
        · exact hplain d hd
      · cases h

/-- The whole of a literal, with what is behind it. -/
theorem dropBytes?_literal_iff (contents rest : List Char) :
    dropBytes? (contents.length + 2) ('"' :: (contents ++ '"' :: rest)) = some rest ↔ ∀ c ∈ contents, c.toNat < 128 := by
  have hwhole : '"' :: (contents ++ '"' :: rest) = '"' :: (contents ++ ['"']) ++ rest := by simp
  have hlength : contents.length + 2 = ('"' :: (contents ++ ['"'])).length := by simp
  rw [hwhole, hlength]
  constructor
  · intro h c hc
    obtain ⟨tail, -, hrest, hall⟩ := exists_tail_of_dropBytes? (Nat.le_refl _) h
    exact (hall (List.self_eq_append_left.mp hrest)).2 c (by simp [hc])
  · intro hplain
    refine dropBytes?_ascii (fun c hc => ?_) rest
    simp only [List.mem_cons, List.mem_append, List.not_mem_nil, or_false] at hc
    rcases hc with rfl | hc | rfl
    · decide
    · exact hplain c hc
    · decide

/-- **A literal is a single lexeme exactly if it is plain text.** -/
theorem lexeme?_literal_iff (h : ∀ c ∈ contents, c ≠ '"' ∧ c ≠ '\\') :
    lexeme? ('"' :: (contents ++ '"' :: rest)) = some (some (.literal (String.ofList contents)), rest) ↔
      ∀ c ∈ contents, c.toNat < 128 := by
  rw [← dropBytes?_literal_iff contents rest, lexeme?_quote, literal?_eq (escaped_of_plain h)]
  simp

/-- **A literal of plain text is one token, and what follows keeps its tokens.** With any other character in it the
literal is found too, but what is read behind it begins before its closing quote, if it can be read at all. -/
theorem tokens?_literal (h : ∀ c ∈ contents, c ≠ '"' ∧ c ≠ '\\') (rest : List Char) :
    ((∀ c ∈ contents, c.toNat < 128) → tokens? ('"' :: (contents ++ '"' :: rest)) =
      (tokens? rest).map (.literal (String.ofList contents) :: ·)) ∧
    ((∃ c ∈ contents, 128 ≤ c.toNat) → tokens? ('"' :: (contents ++ '"' :: rest)) = none ∨
      ∃ tail, tail ≠ [] ∧ tail <:+ contents ++ ['"'] ∧ tokens? ('"' :: (contents ++ '"' :: rest)) =
        (tokens? (tail ++ rest)).map (.literal (String.ofList contents) :: ·)) := by
  constructor
  · exact fun hplain => tokens?_of_lexeme? ((lexeme?_literal_iff h).mpr hplain)
  · rintro ⟨c, hc, hbeyond⟩
    have hlexeme := lexeme?_quote (contents ++ '"' :: rest)
    rw [literal?_eq (escaped_of_plain h)] at hlexeme
    cases hdrop : dropBytes? (contents.length + 2) ('"' :: (contents ++ '"' :: rest)) with
    | none =>
      rw [hdrop] at hlexeme
      exact .inl (tokens?_eq_none_iff.mpr ⟨_, .here _, List.cons_ne_nil _ _, hlexeme⟩)
    | some behind =>
      rw [hdrop] at hlexeme
      have hshorter := length_lt_of_dropBytes? hdrop
      have hne : behind ≠ rest := by
        rintro rfl
        exact Nat.not_lt.mpr hbeyond ((dropBytes?_literal_iff contents behind).mp hdrop c hc)
      have hwhole : '"' :: (contents ++ '"' :: rest) = '"' :: (contents ++ ['"']) ++ rest := by simp
      rw [hwhole] at hdrop
      obtain ⟨tail, hsuffix, rfl, -⟩ := exists_tail_of_dropBytes? (by simp) hdrop
      refine .inr ⟨tail, fun hnil => hne (by rw [hnil, List.nil_append]), ?_, tokens?_of_lexeme? hlexeme⟩
      rcases List.suffix_cons_iff.mp hsuffix with rfl | hsuffix
      · rw [hwhole] at hshorter
        exact absurd hshorter (Nat.lt_irrefl _)
      · exact hsuffix

/-- A comma behind a literal, and the same literal with an accent. -/
theorem tokens?_literal_comma : (∀ c ∈ "cafe".toList, c ≠ '"' ∧ c ≠ '\\') ∧ (∀ c ∈ "cafe".toList, c.toNat < 128) ∧
    tokens? ('"' :: ("cafe".toList ++ ['"', ','])) = some [.literal "cafe", .mark .comma] := by
  have hcontents : ∀ c ∈ "cafe".toList, c ≠ '"' ∧ c ≠ '\\' := by simp
  have hplain : ∀ c ∈ "cafe".toList, c.toNat < 128 := by simp
  refine ⟨hcontents, hplain, ?_⟩
  rw [(tokens?_literal hcontents [',']).1 hplain]
  rfl

/-- **With a letter beyond ASCII a literal can have no tokens,** although nothing is behind it. -/
theorem tokens?_accented : tokens? [] = some [] ∧ tokens? ('"' :: ("caf\u00e9".toList ++ ['"'])) = none := ⟨rfl, rfl⟩

end DragonflyFabric.Language.Lexer
