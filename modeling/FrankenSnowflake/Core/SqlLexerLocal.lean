import Mathlib.Data.List.TakeWhile
import FrankenSnowflake.Core.SqlLexer
import FrankenSnowflake.Foundation.Ascii

/-!
# Locality of lexing

`Arm` lists the arms of the lexer with the conditions that select them.  An arm
looks no further than one character behind its token, so lexing a text token by
token can be taken apart at token boundaries, and a text can be lexed piece by
piece.
-/

namespace FrankenSnowflake.SqlLexer

open Foundation.Ascii (isAlpha_eq isUpper_eq isLower_eq)

/-! ## Arms -/

/-- `--` or `//` at the front. -/
def StartsLine (c : Char) (rest : List Char) : Prop :=
  (c = '-' ∧ rest.head? = some '-') ∨ (c = '/' ∧ rest.head? = some '/')

/-- A character that opens none of the other tokens. -/
structure IsSymbol (c : Char) (rest : List Char) : Prop where
  whitespace : isAsciiWhitespace c = false
  line : ¬ StartsLine c rest
  block : ¬ (c = '/' ∧ rest.head? = some '*')
  quote : c ≠ '\''
  doubleQuote : c ≠ '"'
  dollar : ¬ (c = '$' ∧ rest.head? = some '$')
  var : ¬ (c = '$' ∧ rest.head?.any (fun n ↦ n.isAlphanum || n = '_'))
  semicolon : c ≠ ';'
  alpha : c.isAlpha = false
  underscore : c ≠ '_'
  digit : c.isDigit = false

/-- The arms of the lexer's `match`. -/
inductive Arm (c : Char) (rest : List Char) : Scanned → Prop where
  | whitespace (h : isAsciiWhitespace c) :
      Arm c rest (runOf .whitespace isAsciiWhitespace (c :: rest))
  | line (h : StartsLine c rest) :
      Arm c rest { kind := .comment, text := (lineEnd (c :: rest)).1, rest := (lineEnd (c :: rest)).2 }
  | block (hc : c = '/') (h : rest.head? = some '*') :
      Arm c rest { kind := .comment, text := '/' :: '*' :: (blockBody rest.tail).text,
                   rest := (blockBody rest.tail).rest,
                   unterminated := !(blockBody rest.tail).closed,
                   ambiguous := blockNested rest.tail }
  | string (hc : c = '\'') :
      Arm c rest { kind := .stringLiteral, text := c :: (stringBody rest).text,
                   rest := (stringBody rest).rest, unterminated := !(stringBody rest).closed }
  | identifier (hc : c = '"') :
      Arm c rest { kind := .quotedIdentifier, text := c :: (identifierBody rest).text,
                   rest := (identifierBody rest).rest,
                   unterminated := !(identifierBody rest).closed }
  | dollar (hc : c = '$') (h : rest.head? = some '$') :
      Arm c rest { kind := .dollarString, text := '$' :: '$' :: (dollarBody rest.tail).text,
                   rest := (dollarBody rest.tail).rest,
                   unterminated := !(dollarBody rest.tail).closed }
  | var (hc : c = '$') (h : rest.head?.any (fun n ↦ n.isAlphanum || n = '_')) :
      Arm c rest { kind := .var, text := c :: rest.takeWhile isIdentifierByte,
                   rest := rest.dropWhile isIdentifierByte }
  | semicolon (hc : c = ';') : Arm c rest { kind := .semicolon, text := [c], rest }
  | word (h : c.isAlpha || c = '_') : Arm c rest (runOf .word isIdentifierByte (c :: rest))
  | number (h : c.isDigit) :
      Arm c rest (runOf .number (fun d ↦ d.isAlphanum || d = '.') (c :: rest))
  | symbol (h : IsSymbol c rest) : Arm c rest { kind := .symbol, text := [c], rest }

theorem arm_scanToken (c : Char) (rest : List Char) : Arm c rest (scanToken c rest) := by
  unfold scanToken
  dsimp only
  split_ifs with hspace hline hblock hquote hdouble hdollar hvar hsemi hword hdigit
  · exact .whitespace hspace
  · exact .line (by simpa [StartsLine] using hline)
  · rw [Bool.and_eq_true, decide_eq_true_eq, decide_eq_true_eq] at hblock
    exact .block hblock.1 hblock.2
  · exact .string hquote
  · exact .identifier hdouble
  · rw [Bool.and_eq_true, decide_eq_true_eq, decide_eq_true_eq] at hdollar
    exact .dollar hdollar.1 hdollar.2
  · rw [Bool.and_eq_true, decide_eq_true_eq] at hvar
    exact .var hvar.1 hvar.2
  · exact .semicolon hsemi
  · exact .word hword
  · exact .number hdigit
  · simp only [Bool.not_eq_true, Bool.or_eq_false_iff, decide_eq_false_iff_not] at hspace hword hdigit
    rw [Bool.and_eq_true, decide_eq_true_eq, decide_eq_true_eq] at hblock hdollar
    rw [Bool.and_eq_true, decide_eq_true_eq] at hvar
    exact .symbol ⟨hspace, by simpa [StartsLine] using hline, hblock, hquote, hdouble, hdollar,
      hvar, hsemi, hword.1, hword.2, hdigit⟩

theorem isAlpha_of_isDigit {c : Char} (h : c.isDigit) : c.isAlpha = false := by
  simp only [Char.isDigit, isAlpha_eq, isUpper_eq, isLower_eq, Bool.and_eq_true,
    decide_eq_true_eq, Bool.or_eq_false_iff, Bool.and_eq_false_iff, decide_eq_false_iff_not,
    UInt32.le_iff_toNat_le, ge_iff_le] at h ⊢
  have h0 : '0'.val.toNat = 48 := rfl
  have h9 : '9'.val.toNat = 57 := rfl
  have hA : 'A'.val.toNat = 65 := rfl
  have ha : 'a'.val.toNat = 97 := rfl
  omega

/-- The conditions of the arms exclude each other. -/
theorem scanToken_eq {c : Char} {rest : List Char} {s : Scanned} (h : Arm c rest s) :
    scanToken c rest = s := by
  cases h with
  | whitespace h => simp only [scanToken, h, if_true]
  | line h =>
      rcases h with ⟨rfl, h⟩ | ⟨rfl, h⟩
      · simp [scanToken, isAsciiWhitespace, h]
      · simp [scanToken, isAsciiWhitespace, h]
  | block hc h =>
      subst hc
      simp [scanToken, isAsciiWhitespace, h]
  | string hc =>
      subst hc
      simp [scanToken, isAsciiWhitespace]
  | identifier hc =>
      subst hc
      simp [scanToken, isAsciiWhitespace]
  | dollar hc h =>
      subst hc
      simp [scanToken, isAsciiWhitespace, h]
  | var hc h =>
      subst hc
      have hne : rest.head? ≠ some '$' := by
        intro hd
        simp [hd, Char.isAlphanum, isAlpha_eq, isUpper_eq, isLower_eq, Char.isDigit] at h
      simp [scanToken, isAsciiWhitespace, h, hne]
  | semicolon hc =>
      subst hc
      simp [scanToken, isAsciiWhitespace]
  | word h =>
      have hne : ∀ d : Char, (d.isAlpha || d = '_') = false → c ≠ d := by
        rintro d hd rfl
        rw [hd] at h
        cases h
      have hspace : isAsciiWhitespace c = false := by
        simp [isAsciiWhitespace, hne]
      simp [scanToken, hspace, hne, h]
  | number h =>
      have hne : ∀ d : Char, d.isDigit = false → c ≠ d := by
        rintro d hd rfl
        rw [hd] at h
        cases h
      have halpha := isAlpha_of_isDigit h
      have hspace : isAsciiWhitespace c = false := by
        simp [isAsciiWhitespace, hne]
      simp [scanToken, hspace, hne, h, halpha]
  | symbol h =>
      have hline := h.line
      have hvar := h.var
      simp only [StartsLine] at hline
      simp [scanToken, h.whitespace, hline, h.block, h.quote, h.doubleQuote, h.dollar, h.var,
        h.semicolon, h.alpha, h.underscore, h.digit]

/-! ## What an arm takes -/

theorem stringBody_append (s : List Char) : (stringBody s).text ++ (stringBody s).rest = s := by
  fun_induction stringBody s with
  | case1 => rfl
  | case2 => rfl
  | case3 c rest ih => simp [Body.push, ih]
  | case4 rest ih => simp [Body.push, ih]
  | case5 rest => rfl
  | case6 c rest _ _ _ _ ih => simp [Body.push, ih]

theorem identifierBody_append (s : List Char) :
    (identifierBody s).text ++ (identifierBody s).rest = s := by
  fun_induction identifierBody s with
  | case1 => rfl
  | case2 rest ih => simp [Body.push, ih]
  | case3 rest => rfl
  | case4 c rest _ _ ih => simp [Body.push, ih]

theorem dollarBody_append (s : List Char) : (dollarBody s).text ++ (dollarBody s).rest = s := by
  fun_induction dollarBody s with
  | case1 => rfl
  | case2 rest => rfl
  | case3 c rest _ ih => simp [Body.push, ih]

theorem blockBody_append (s : List Char) : (blockBody s).text ++ (blockBody s).rest = s := by
  fun_induction blockBody s with
  | case1 => rfl
  | case2 rest => rfl
  | case3 c rest _ ih => simp [Body.push, ih]

theorem eq_cons_of_head? {c : Char} {s : List Char} (h : s.head? = some c) : s = c :: s.tail := by
  cases s with
  | nil => cases h
  | cons d s => simpa using h

/-- An arm splits the text. -/
theorem Arm.append_eq {c : Char} {rest : List Char} {s : Scanned} (h : Arm c rest s) :
    s.text ++ s.rest = c :: rest := by
  cases h with
  | whitespace h => exact List.takeWhile_append_dropWhile
  | line h => exact List.takeWhile_append_dropWhile
  | block hc h => simp [blockBody_append, hc, ← eq_cons_of_head? h]
  | string hc => simp [stringBody_append]
  | identifier hc => simp [identifierBody_append]
  | dollar hc h => simp [dollarBody_append, hc, ← eq_cons_of_head? h]
  | var hc h => simp
  | semicolon hc => rfl
  | word h => exact List.takeWhile_append_dropWhile
  | number h => exact List.takeWhile_append_dropWhile
  | symbol h => rfl

/-! ## Closed bodies -/

theorem stringBody_cons {c : Char} (hescape : c ≠ '\\') (hquote : c ≠ '\'') (rest : List Char) :
    stringBody (c :: rest) = (stringBody rest).push [c] := by
  rw [stringBody]
  · rintro rfl
    exact absurd rfl hescape
  · rintro _ _ rfl
    exact absurd rfl hescape
  · rintro _ rfl
    exact absurd rfl hquote
  · exact hquote

theorem identifierBody_cons {c : Char} (hquote : c ≠ '"') (rest : List Char) :
    identifierBody (c :: rest) = (identifierBody rest).push [c] := by
  rw [identifierBody]
  · rintro _ rfl
    exact absurd rfl hquote
  · exact hquote

theorem stringBody_quote {rest : List Char} (h : rest.head? ≠ some '\'') :
    stringBody ('\'' :: rest) = ⟨['\''], rest, true⟩ := by
  cases rest with
  | nil => rfl
  | cons d rest =>
      rw [stringBody]
      rintro rest' heq
      exact h (by rw [heq]; rfl)

theorem identifierBody_quote {rest : List Char} (h : rest.head? ≠ some '"') :
    identifierBody ('"' :: rest) = ⟨['"'], rest, true⟩ := by
  cases rest with
  | nil => rfl
  | cons d rest =>
      rw [identifierBody]
      rintro rest' heq
      exact h (by rw [heq]; rfl)

theorem stringBody_closed {s tail : List Char} (h : (stringBody s).closed)
    (htail : tail.head? ≠ some '\'') :
    stringBody ((stringBody s).text ++ tail) = ⟨(stringBody s).text, tail, true⟩ := by
  fun_induction stringBody s with
  | case1 => cases h
  | case2 => cases h
  | case3 c rest ih =>
      simp only [Body.push, List.cons_append, List.nil_append, stringBody, ih h]
  | case4 rest ih =>
      simp only [Body.push, List.cons_append, List.nil_append, stringBody, ih h]
  | case5 rest hne => exact stringBody_quote htail
  | case6 c rest h₁ h₂ h₃ h₄ ih =>
      have hescape : c ≠ '\\' := by
        rintro rfl
        cases rest with
        | nil => exact h₁ rfl rfl
        | cons d rest => exact h₂ _ _ rfl rfl
      simp only [Body.push, List.cons_append, List.nil_append, stringBody_cons hescape h₄, ih h]

theorem identifierBody_closed {s tail : List Char} (h : (identifierBody s).closed)
    (htail : tail.head? ≠ some '"') :
    identifierBody ((identifierBody s).text ++ tail) = ⟨(identifierBody s).text, tail, true⟩ := by
  fun_induction identifierBody s with
  | case1 => cases h
  | case2 rest ih =>
      simp only [Body.push, List.cons_append, List.nil_append, identifierBody, ih h]
  | case3 rest hne => exact identifierBody_quote htail
  | case4 c rest h₁ h₂ ih =>
      simp only [Body.push, List.cons_append, List.nil_append, identifierBody_cons h₂, ih h]

/-- The text of a closed body is not empty. -/
theorem dollarBody_text_head {s : List Char} (h : (dollarBody s).closed) :
    (dollarBody s).text.head? = s.head? := by
  cases s with
  | nil => cases h
  | cons c s =>
      rw [dollarBody.eq_def]
      split
      next heq => cases heq
      next heq =>
        obtain ⟨rfl, rfl⟩ := List.cons.inj heq
        rfl
      next heq =>
        obtain ⟨rfl, rfl⟩ := List.cons.inj heq
        rfl

theorem blockBody_text_head {s : List Char} (h : (blockBody s).closed) :
    (blockBody s).text.head? = s.head? := by
  cases s with
  | nil => cases h
  | cons c s =>
      rw [blockBody.eq_def]
      split
      next heq => cases heq
      next heq =>
        obtain ⟨rfl, rfl⟩ := List.cons.inj heq
        rfl
      next heq =>
        obtain ⟨rfl, rfl⟩ := List.cons.inj heq
        rfl

theorem head?_append_of_closed {t s : List Char} (h : t.head? = s.head?) (hs : s ≠ [])
    (tail : List Char) : (t ++ tail).head? = s.head? := by
  cases t with
  | nil => exact absurd (List.head?_eq_none_iff.mp h.symm) hs
  | cons c t => exact h

theorem dollarBody_closed {s tail : List Char} (h : (dollarBody s).closed) :
    dollarBody ((dollarBody s).text ++ tail) = ⟨(dollarBody s).text, tail, true⟩ := by
  fun_induction dollarBody s with
  | case1 => cases h
  | case2 rest => rfl
  | case3 c rest hne ih =>
      have hrest : rest ≠ [] := by
        rintro rfl
        cases h
      have hhead := head?_append_of_closed (dollarBody_text_head (s := rest) h) hrest tail
      simp only [Body.push, List.cons_append, List.nil_append]
      rw [dollarBody, ih h]
      · rfl
      · rintro rest' rfl heq
        rw [heq] at hhead
        exact hne rest.tail rfl (eq_cons_of_head? hhead.symm)

theorem blockBody_closed {s tail : List Char} (h : (blockBody s).closed) :
    blockBody ((blockBody s).text ++ tail) = ⟨(blockBody s).text, tail, true⟩ := by
  fun_induction blockBody s with
  | case1 => cases h
  | case2 rest => rfl
  | case3 c rest hne ih =>
      have hrest : rest ≠ [] := by
        rintro rfl
        cases h
      have hhead := head?_append_of_closed (blockBody_text_head (s := rest) h) hrest tail
      simp only [Body.push, List.cons_append, List.nil_append]
      rw [blockBody, ih h]
      · rfl
      · rintro rest' rfl heq
        rw [heq] at hhead
        exact hne rest.tail rfl (eq_cons_of_head? hhead.symm)

theorem blockNested_closed {s tail : List Char} (h : (blockBody s).closed) :
    blockNested ((blockBody s).text ++ tail) = blockNested s := by
  fun_induction blockBody s with
  | case1 => cases h
  | case2 rest => rfl
  | case3 c rest hne ih =>
      have hrest : rest ≠ [] := by
        rintro rfl
        cases h
      have hhead := head?_append_of_closed (blockBody_text_head (s := rest) h) hrest tail
      have hnot : ∀ rest', c = '*' → (blockBody rest).text ++ tail = '/' :: rest' → False := by
        rintro rest' rfl heq
        rw [heq] at hhead
        exact hne rest.tail rfl (eq_cons_of_head? hhead.symm)
      simp only [Body.push, List.cons_append, List.nil_append]
      rw [blockNested.eq_3 _ _ hnot, blockNested.eq_3 _ _ hne, ih h, hhead]

/-! ## Locality -/

theorem takeWhile_append_of_head {p : Char → Bool} {t tail : List Char} (ht : ∀ c ∈ t, p c)
    (htail : ∀ c ∈ tail.head?, p c = false) : (t ++ tail).takeWhile p = t := by
  rw [List.takeWhile_append_of_pos ht]
  cases tail with
  | nil => simp
  | cons c tail => simp [htail c rfl]

theorem dropWhile_append_of_head {p : Char → Bool} {t tail : List Char} (ht : ∀ c ∈ t, p c)
    (htail : ∀ c ∈ tail.head?, p c = false) : (t ++ tail).dropWhile p = tail := by
  rw [List.dropWhile_append_of_pos ht]
  cases tail with
  | nil => rfl
  | cons c tail => simp [htail c rfl]

/-- A run of characters takes no more than it took. -/
theorem runOf_append {kind : SqlTokenKind} {p : Char → Bool} {c : Char} {rest tail : List Char}
    (hc : p c) (htail : ∀ d ∈ tail.head?, p d = false) :
    runOf kind p (c :: (((c :: rest).takeWhile p).tail ++ tail)) =
      { runOf kind p (c :: rest) with rest := tail } := by
  have ht : ∀ d ∈ (c :: rest).takeWhile p, p d := fun _ hd ↦ List.mem_takeWhile_imp hd
  have hcons : c :: ((c :: rest).takeWhile p).tail = (c :: rest).takeWhile p := by simp [hc]
  rw [← List.cons_append, hcons]
  simp only [runOf, takeWhile_append_of_head ht htail, dropWhile_append_of_head ht htail]

theorem StartsLine.ne_newline {c : Char} {rest : List Char} (h : StartsLine c rest) :
    c ≠ '\n' ∧ ∃ d rest', rest = d :: rest' ∧ d ≠ '\n' := by
  rcases h with ⟨rfl, h⟩ | ⟨rfl, h⟩
  · exact ⟨by decide, '-', rest.tail, eq_cons_of_head? h, by decide⟩
  · exact ⟨by decide, '/', rest.tail, eq_cons_of_head? h, by decide⟩

theorem StartsLine.congr {c : Char} {rest : List Char} (h : StartsLine c rest)
    (rest' : List Char) (hhead : rest'.head? = rest.head?) : StartsLine c rest' := by
  unfold StartsLine at h ⊢
  rwa [hhead]

/-! ## Token by token -/

/-- All tokens of a text, as guards compare them. -/
def tokenContent (sql : List Char) : List (SqlTokenKind × List Char) :=
  (lex sql).tokens.map SqlToken.content

/-- Whitespace or a comment. -/
def isTriviaKind (kind : SqlTokenKind) : Bool :=
  match kind with
  | .whitespace | .comment => true
  | _ => false

theorem significantContent_eq (sql : List Char) :
    significantContent sql = (tokenContent sql).filter fun t ↦ !isTriviaKind t.1 := by
  rw [significantContent, tokenContent, SqlLex.significant, List.filter_map]
  rfl

@[simp] theorem tokenContent_nil : tokenContent [] = [] := rfl

@[simp] theorem isUnreliable_nil : (lex []).isUnreliable = false := rfl

theorem lexFrom_cons (c : Char) (rest : List Char) :
    tokenContent (c :: rest) =
        ((scanToken c rest).kind, (scanToken c rest).text) :: tokenContent (scanToken c rest).rest ∧
      (lex (c :: rest)).isUnreliable = ((scanToken c rest).unterminated ||
        (scanToken c rest).ambiguous || (lex (scanToken c rest).rest).isUnreliable) := by
  obtain ⟨ht, hu, ha⟩ := lexFrom_start rest.length (0 + utf8Len (scanToken c rest).text)
    (scanToken c rest).rest
  have hfuel := lexFrom_fuel 0 (length_rest_scanToken c rest)
    (Nat.le_refl (scanToken c rest).rest.length)
  rw [hfuel] at ht hu ha
  simp only [tokenContent, lex, List.length_cons, lexFrom, SqlLex.isUnreliable, ht, hu, ha,
    List.map_cons, List.map_map]
  refine ⟨rfl, ?_⟩
  simp only [Bool.or_assoc, Bool.or_left_comm]

/-- Induction along the tokens of a text. -/
@[elab_as_elim]
theorem lex_induction {P : List Char → Prop} (nil : P [])
    (cons : ∀ c rest, P (scanToken c rest).rest → P (c :: rest)) (sql : List Char) : P sql := by
  induction hn : sql.length using Nat.strong_induction_on generalizing sql with
  | _ n ih =>
      cases sql with
      | nil => exact nil
      | cons c rest =>
          have hlt : (scanToken c rest).rest.length < n := by
            have hle := length_rest_scanToken c rest
            rw [List.length_cons] at hn
            omega
          exact cons c rest (ih _ hlt _ rfl)

/-- The tokens make up the text. -/
theorem flatten_tokenContent (sql : List Char) :
    ((tokenContent sql).map Prod.snd).flatten = sql := by
  induction sql using lex_induction with
  | nil => rfl
  | cons c rest ih =>
      rw [(lexFrom_cons c rest).1, List.map_cons, List.flatten_cons, ih]
      exact (arm_scanToken c rest).append_eq

/-- What holds of every arm holds of every token. -/
theorem forall_tokenContent {P : SqlTokenKind × List Char → Prop}
    (h : ∀ c rest s, Arm c rest s → P (s.kind, s.text)) (sql : List Char) :
    ∀ t ∈ tokenContent sql, P t := by
  induction sql using lex_induction with
  | nil => exact fun t ht ↦ nomatch ht
  | cons c rest ih =>
      rw [(lexFrom_cons c rest).1]
      exact List.forall_mem_cons.mpr ⟨h c rest _ (arm_scanToken c rest), ih⟩

/-! ## Words -/

theorem word?_eq_some {t : SqlToken} {word : List Char} :
    t.word? = some word ↔ t.kind = .word ∧ t.text.map Char.toLower = word := by
  unfold SqlToken.word?
  split_ifs with hkind
  · simp [hkind]
  · simp [hkind]

/-- Words are significant. -/
theorem words_eq_significant (l : SqlLex) : l.words = l.significant.filterMap SqlToken.word? := by
  rw [SqlLex.words, SqlLex.significant, List.filterMap_filter]
  apply List.filterMap_congr
  intro t _
  cases hword : t.word? with
  | none => simp
  | some word => simp [SqlToken.isTrivia, (word?_eq_some.mp hword).1]

end FrankenSnowflake.SqlLexer
