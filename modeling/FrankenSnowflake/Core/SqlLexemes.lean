import Mathlib.Data.List.Chain
import FrankenSnowflake.Core.SqlLexerSplit
import FrankenSnowflake.Core.SqlRead

/-!
# Lexemes

A text lexes to a list of lexemes: kinds and texts, with the flags that each of
them raised.  Which lists these are is a local matter: every lexeme lexes to
itself, and none goes on with the first character of the next one.  So a part of
a list of lexemes is the lexing of its own text, and a list that is changed in
places is, where the neighbours allow it, the lexing of the changed text.
-/

namespace FrankenSnowflake.SqlLexer

/-! ## Neighbours -/

/-- Whether a character right behind a token would be part of it, or change it. -/
def goesOn (kind : SqlTokenKind) (text : List Char) (d : Char) : Bool :=
  match kind with
  | .whitespace => isAsciiWhitespace d
  | .comment => isLineComment (kind, text) && d ≠ '\n'
  | .stringLiteral => d = '\''
  | .quotedIdentifier => d = '"'
  | .dollarString | .semicolon => false
  | .var | .word => isIdentifierByte d
  | .number => d.isAlphanum || d = '.'
  | .symbol =>
      (text = ['-'] && d = '-') || (text = ['/'] && (d = '/' || d = '*')) ||
        (text = ['$'] && (d = '$' || d.isAlphanum || d = '_'))

/-- Nothing that a text starts with goes on with a token. -/
def Ends (kind : SqlTokenKind) (text tail : List Char) : Prop :=
  ∀ d ∈ tail.head?, goesOn kind text d = false

theorem Ends.nil (kind : SqlTokenKind) (text : List Char) : Ends kind text [] := nofun

theorem head?_dropWhile_false {p : Char → Bool} {s : List Char} :
    ∀ d ∈ (s.dropWhile p).head?, p d = false := by
  intro d hd
  have hnot := List.head?_dropWhile_not p s
  rw [hd] at hnot
  exact hnot

theorem IsSymbol.ends {c : Char} {rest : List Char} (h : IsSymbol c rest) :
    Ends .symbol [c] rest := by
  intro d hd
  have hne {e f : Char} (heq : c = e) (hnot : ¬ (c = e ∧ rest.head? = some f)) : d ≠ f := by
    rintro rfl
    exact hnot ⟨heq, hd⟩
  have hline := not_or.mp h.line
  simp only [goesOn, List.cons.injEq, and_true, Bool.or_eq_false_iff, Bool.and_eq_false_iff,
    decide_eq_false_iff_not]
  refine ⟨⟨?_, ?_⟩, ?_⟩
  · by_cases hc : c = '-'
    · exact .inr (hne hc hline.1)
    · exact .inl hc
  · by_cases hc : c = '/'
    · exact .inr ⟨hne hc hline.2, hne hc h.block⟩
    · exact .inl hc
  · by_cases hc : c = '$'
    · have hvar : (d.isAlphanum || d = '_') = false := by
        by_contra hword
        exact h.var ⟨hc, by rw [hd]; exact Bool.not_eq_false _ ▸ hword⟩
      rw [Bool.or_eq_false_iff, decide_eq_false_iff_not] at hvar
      exact .inr ⟨⟨hne hc h.dollar, hvar.1⟩, hvar.2⟩
    · exact .inl hc

/-- What a closed token left does not go on with it. -/
theorem Arm.ends {c : Char} {rest : List Char} {s : Scanned} (h : Arm c rest s)
    (hclosed : s.unterminated = false) : Ends s.kind s.text s.rest := by
  have hline := h.isLineComment_iff
  cases h with
  | whitespace | number => exact head?_dropWhile_false
  | word | var => exact head?_dropWhile_false
  | line =>
      intro d hd
      have hnewline : d = '\n' := by
        have hstop := head?_dropWhile_false d hd
        simpa using hstop
      simp [goesOn, hnewline]
  | block hc hstar =>
      intro d _
      have hnot : isLineComment (.comment, '/' :: '*' :: (blockBody rest.tail).text) = false := by
        simp [isLineComment]
      simp only [goesOn, hnot, Bool.false_and]
  | string =>
      intro d hd
      have hquote := head?_rest_stringBody (s := rest) (by simpa using hclosed)
      simp only [goesOn, decide_eq_false_iff_not]
      rintro rfl
      exact hquote hd
  | identifier =>
      intro d hd
      have hquote := head?_rest_identifierBody (s := rest) (by simpa using hclosed)
      simp only [goesOn, decide_eq_false_iff_not]
      rintro rfl
      exact hquote hd
  | dollar | semicolon => exact fun _ _ ↦ rfl
  | symbol h => exact h.ends

theorem isIdentifierByte_of_start {c : Char} (h : c.isAlpha || c = '_') : isIdentifierByte c := by
  rcases (by simpa using h : c.isAlpha ∨ c = '_') with h | rfl
  · simp [isIdentifierByte, Char.isAlphanum, h]
  · decide

theorem IsSymbol.of_ends {c : Char} {rest tail : List Char} (h : IsSymbol c rest)
    (htail : Ends .symbol [c] tail) : IsSymbol c tail := by
  refine { h with line := ?_, block := ?_, dollar := ?_, var := ?_ }
  · rintro (⟨rfl, hd⟩ | ⟨rfl, hd⟩)
    · cases htail _ hd
    · cases htail _ hd
  · rintro ⟨rfl, hd⟩
    cases htail _ hd
  · rintro ⟨rfl, hd⟩
    cases htail _ hd
  · rintro ⟨rfl, hd⟩
    obtain ⟨n, hn, hword⟩ := (Option.any_eq_true _ _).mp hd
    have hends := htail n hn
    simp only [goesOn, Bool.or_eq_false_iff, decide_true, Bool.true_and] at hends
    rw [hends.2.1.2, hends.2.2] at hword
    cases hword

/-- A closed token is lexed alike before any text that does not go on with it. -/
theorem Arm.before {c : Char} {rest tail : List Char} {s : Scanned} (h : Arm c rest s)
    (hclosed : s.unterminated = false) (htail : Ends s.kind s.text tail) :
    Arm c (s.text.tail ++ tail) { s with rest := tail } := by
  cases h with
  | whitespace h =>
      have harm : Arm c (((c :: rest).takeWhile isAsciiWhitespace).tail ++ tail) _ := .whitespace h
      rwa [runOf_append h htail] at harm
  | line h =>
      obtain ⟨hc, d, rest', rfl, hd⟩ := h.ne_newline
      let t := (c :: d :: rest').takeWhile (· ≠ '\n')
      have hall : ∀ e ∈ t, decide (e ≠ '\n') := fun e he ↦ List.mem_takeWhile_imp (p := (· ≠ '\n')) he
      have hcons : c :: (t.tail ++ tail) = t ++ tail := by simp [t, hc]
      have hnewline : ∀ e ∈ tail.head?, decide (e ≠ '\n') = false := by
        intro e he
        have hline : isLineComment (.comment, t) = true := (Arm.line h).isLineComment_iff.mpr h
        have hends := htail e he
        simp only [goesOn] at hends
        rwa [show (lineEnd (c :: d :: rest')).1 = t from rfl, hline, Bool.true_and] at hends
      have harm := Arm.line (h.congr (t.tail ++ tail) (by simp [t, hc, hd]))
      rwa [lineEnd, hcons, takeWhile_append_of_head hall hnewline,
        dropWhile_append_of_head hall hnewline] at harm
  | block hc h =>
      subst hc
      have hb : (blockBody rest.tail).closed := by simpa using hclosed
      have harm : Arm '/' ('*' :: ((blockBody rest.tail).text ++ tail)) _ := .block rfl rfl
      simp only [List.tail_cons, blockBody_closed hb, blockNested_closed hb] at harm
      simpa [hb] using harm
  | string hc =>
      have hb : (stringBody rest).closed := by simpa using hclosed
      have hquote : tail.head? ≠ some '\'' := by
        intro hd
        cases htail _ hd
      have harm : Arm c ((stringBody rest).text ++ tail) _ := .string hc
      rw [stringBody_closed hb hquote] at harm
      simpa [hb] using harm
  | identifier hc =>
      have hb : (identifierBody rest).closed := by simpa using hclosed
      have hquote : tail.head? ≠ some '"' := by
        intro hd
        cases htail _ hd
      have harm : Arm c ((identifierBody rest).text ++ tail) _ := .identifier hc
      rw [identifierBody_closed hb hquote] at harm
      simpa [hb] using harm
  | dollar hc h =>
      subst hc
      have hb : (dollarBody rest.tail).closed := by simpa using hclosed
      have harm : Arm '$' ('$' :: ((dollarBody rest.tail).text ++ tail)) _ := .dollar rfl rfl
      simp only [List.tail_cons, dollarBody_closed hb] at harm
      simpa [hb] using harm
  | var hc h =>
      obtain ⟨d, rest', rfl⟩ : ∃ d rest', rest = d :: rest' := by
        cases rest with
        | nil => cases h
        | cons d rest' => exact ⟨d, rest', rfl⟩
      have hd : isIdentifierByte d := by
        rcases (by simpa using h : d.isAlphanum ∨ d = '_') with h | rfl
        · simp [isIdentifierByte, h]
        · decide
      have hall : ∀ e ∈ (d :: rest').takeWhile isIdentifierByte, isIdentifierByte e :=
        fun _ he ↦ List.mem_takeWhile_imp he
      have harm : Arm c ((d :: rest').takeWhile isIdentifierByte ++ tail) _ :=
        .var hc (by simpa [hd] using h)
      rwa [takeWhile_append_of_head hall htail, dropWhile_append_of_head hall htail] at harm
  | semicolon hc => exact .semicolon hc
  | word h =>
      have harm : Arm c (((c :: rest).takeWhile isIdentifierByte).tail ++ tail) _ := .word h
      rwa [runOf_append (isIdentifierByte_of_start h) htail] at harm
  | number h =>
      have hc : (fun d : Char ↦ d.isAlphanum || d = '.') c := by simp [Char.isAlphanum, h]
      have harm : Arm c (((c :: rest).takeWhile fun d ↦ d.isAlphanum || d = '.').tail ++ tail) _ :=
        .number h
      have hends : ∀ d ∈ tail.head?, (d.isAlphanum || d = '.') = false := htail
      rwa [runOf_append hc hends] at harm
  | symbol h => exact .symbol (h.of_ends htail)

/-! ## Lexemes of a text -/

/-- A token without its place, with the flags that it raised. -/
structure Lexeme where
  kind : SqlTokenKind
  text : List Char
  unterminated : Bool
  ambiguous : Bool
deriving DecidableEq, Repr

def Scanned.lexeme (s : Scanned) : Lexeme := ⟨s.kind, s.text, s.unterminated, s.ambiguous⟩

/-- The arms that the lexer ran, one for each token. -/
def lexemesFrom : Nat → List Char → List Lexeme
  | 0, _ | _, [] => []
  | fuel + 1, c :: rest => (scanToken c rest).lexeme :: lexemesFrom fuel (scanToken c rest).rest

def lexemes (sql : List Char) : List Lexeme := lexemesFrom sql.length sql

/-- The text that lexemes make up. -/
def textOf (ls : List Lexeme) : List Char := (ls.map Lexeme.text).flatten

@[simp] theorem textOf_nil : textOf [] = [] := rfl

@[simp] theorem textOf_cons (l : Lexeme) (ls : List Lexeme) :
    textOf (l :: ls) = l.text ++ textOf ls := rfl

@[simp] theorem textOf_append (ls ms : List Lexeme) :
    textOf (ls ++ ms) = textOf ls ++ textOf ms := by
  simp [textOf]

/-- Tokens one behind the other. -/
def placed : Nat → List Lexeme → List SqlToken
  | _, [] => []
  | start, l :: ls => ⟨l.kind, l.text, start⟩ :: placed (start + utf8Len l.text) ls

theorem lexFrom_eq (fuel start : Nat) (s : List Char) :
    lexFrom fuel start s =
      { tokens := placed start (lexemesFrom fuel s)
        unterminated := (lexemesFrom fuel s).any Lexeme.unterminated
        ambiguous := (lexemesFrom fuel s).any Lexeme.ambiguous } := by
  induction fuel generalizing start s with
  | zero => simp [lexFrom, lexemesFrom, placed]
  | succ fuel ih =>
      cases s with
      | nil => simp [lexFrom, lexemesFrom, placed]
      | cons c rest => simp [lexFrom, lexemesFrom, placed, Scanned.lexeme, ih]

theorem lex_eq (sql : List Char) :
    lex sql =
      { tokens := placed 0 (lexemes sql)
        unterminated := (lexemes sql).any Lexeme.unterminated
        ambiguous := (lexemes sql).any Lexeme.ambiguous } := lexFrom_eq _ _ _

@[simp] theorem lexemes_nil : lexemes [] = [] := rfl

theorem lexemesFrom_fuel {fuel fuel' : Nat} {s : List Char} (h : s.length ≤ fuel)
    (h' : s.length ≤ fuel') : lexemesFrom fuel s = lexemesFrom fuel' s := by
  induction fuel generalizing fuel' s with
  | zero =>
      obtain rfl : s = [] := List.length_eq_zero_iff.mp (Nat.le_zero.mp h)
      cases fuel' <;> rfl
  | succ fuel ih =>
      cases s with
      | nil => cases fuel' <;> rfl
      | cons c rest =>
          cases fuel' with
          | zero => cases h'
          | succ fuel' =>
              have hrest := length_rest_scanToken c rest
              exact congrArg _ (ih (hrest.trans (Nat.le_of_succ_le_succ h))
                (hrest.trans (Nat.le_of_succ_le_succ h')))

theorem lexemes_cons (c : Char) (rest : List Char) :
    lexemes (c :: rest) = (scanToken c rest).lexeme :: lexemes (scanToken c rest).rest :=
  congrArg _ (lexemesFrom_fuel (length_rest_scanToken c rest) (Nat.le_refl _))

theorem textOf_lexemes (sql : List Char) : textOf (lexemes sql) = sql := by
  induction sql using lex_induction with
  | nil => rfl
  | cons c rest ih =>
      rw [lexemes_cons, textOf_cons, ih]
      exact (arm_scanToken c rest).append_eq

/-! ## Which lists are lexemes of a text -/

/-- A lexeme lexes to itself. -/
def Lexeme.Stands (l : Lexeme) : Prop :=
  ∃ c rest, l.text = c :: rest ∧ Arm c rest ⟨l.kind, l.text, [], l.unterminated, l.ambiguous⟩

/-- The first of two lexemes is not changed by the second. -/
def Adjacent (l m : Lexeme) : Prop := l.unterminated = false ∧ Ends l.kind l.text m.text

theorem Lexeme.Stands.ne_nil {l : Lexeme} (h : l.Stands) : l.text ≠ [] := by
  obtain ⟨c, rest, htext, -⟩ := h
  rw [htext]
  exact List.cons_ne_nil c rest

theorem Arm.text_eq {c : Char} {rest : List Char} {s : Scanned} (h : Arm c rest s) :
    s.text = c :: s.text.tail := by
  obtain ⟨d, text, htext⟩ := List.exists_cons_of_ne_nil h.text_ne_nil
  have happend := h.append_eq
  rw [htext] at happend ⊢
  rw [(List.cons.inj happend).1]
  rfl

theorem Arm.stands {c : Char} {rest : List Char} {s : Scanned} (h : Arm c rest s) :
    s.lexeme.Stands := by
  refine ⟨c, s.text.tail, h.text_eq, ?_⟩
  cases hclosed : s.unterminated with
  | false =>
      have harm := h.before hclosed (Ends.nil _ _)
      rw [List.append_nil] at harm
      exact harm
  | true =>
      have hrest := h.rest_eq_nil hclosed
      have happend := h.append_eq
      rw [hrest, List.append_nil] at happend
      rw [happend, List.tail_cons]
      obtain ⟨kind, text, rest', unterminated, ambiguous⟩ := s
      subst hrest
      exact h

theorem head?_textOf {ls : List Lexeme} (h : ∀ l ∈ ls, l.Stands) :
    (textOf ls).head? = (ls.head?).bind fun l ↦ l.text.head? := by
  cases ls with
  | nil => rfl
  | cons l ls =>
      obtain ⟨c, rest, htext, -⟩ := h l List.mem_cons_self
      rw [textOf_cons, htext]
      simp [htext]

theorem stands_lexemes (sql : List Char) : ∀ l ∈ lexemes sql, l.Stands := by
  induction sql using lex_induction with
  | nil => exact fun l hl ↦ nomatch hl
  | cons c rest ih =>
      rw [lexemes_cons]
      exact List.forall_mem_cons.mpr ⟨(arm_scanToken c rest).stands, ih⟩

theorem isChain_lexemes (sql : List Char) : (lexemes sql).IsChain Adjacent := by
  induction sql using lex_induction with
  | nil => exact .nil
  | cons c rest ih =>
      have harm := arm_scanToken c rest
      rw [lexemes_cons, List.isChain_cons]
      refine ⟨fun m hm ↦ ?_, ih⟩
      have hclosed : (scanToken c rest).unterminated = false := by
        by_contra hopen
        rw [harm.rest_eq_nil (Bool.not_eq_false _ ▸ hopen)] at hm
        cases hm
      refine ⟨hclosed, fun d hd ↦ harm.ends hclosed d ?_⟩
      have hhead := head?_textOf (stands_lexemes (scanToken c rest).rest)
      rw [textOf_lexemes, Option.mem_def.mp hm] at hhead
      exact hhead.trans hd

/-- Lexemes that stand and are neighbours lex to themselves. -/
theorem lexemes_textOf {ls : List Lexeme} (hstands : ∀ l ∈ ls, l.Stands)
    (hchain : ls.IsChain Adjacent) : lexemes (textOf ls) = ls := by
  induction ls with
  | nil => rfl
  | cons l ls ih =>
      obtain ⟨hl, hls⟩ := List.forall_mem_cons.mp hstands
      obtain ⟨hadjacent, hrest⟩ := List.isChain_cons.mp hchain
      obtain ⟨c, rest, htext, harm⟩ := hl
      have hwhole : Arm c (rest ++ textOf ls)
          ⟨l.kind, l.text, textOf ls, l.unterminated, l.ambiguous⟩ := by
        cases ls with
        | nil =>
            rw [textOf_nil, List.append_nil]
            exact harm
        | cons m ls =>
            obtain ⟨hclosed, hends⟩ := hadjacent m rfl
            have hhead := head?_textOf hls
            have hbefore := @Arm.before _ _ (textOf (m :: ls)) _ harm hclosed fun d hd ↦
              hends d (hhead.symm.trans hd)
            rwa [htext, List.tail_cons, ← htext] at hbefore
      rw [textOf_cons, htext, List.cons_append, lexemes_cons, scanToken_eq hwhole, ih hls hrest]
      rfl

/-- A part of the lexemes of a text is the lexing of its own text. -/
theorem lexemes_of_part {sql : List Char} {ls : List Lexeme} (h : ls <:+: lexemes sql) :
    lexemes (textOf ls) = ls := by
  have hstands : ∀ l ∈ ls, l.Stands := fun l hl ↦ stands_lexemes sql l (h.subset hl)
  have hchain := isChain_lexemes sql
  obtain ⟨s, t, hparts⟩ := h
  rw [← hparts] at hchain
  exact lexemes_textOf hstands hchain.left_of_append.right_of_append

/-! ## Slices -/

@[simp] theorem utf8Len_nil : utf8Len [] = 0 := rfl

@[simp] theorem utf8Len_append (s t : List Char) : utf8Len (s ++ t) = utf8Len s + utf8Len t := by
  simp [utf8Len]

theorem splitAtByte_append (s t : List Char) : splitAtByte (utf8Len s) (s ++ t) = some (s, t) := by
  induction s with
  | nil =>
      cases t with
      | nil => rfl
      | cons c t => rfl
  | cons c s ih =>
      have hlen : utf8Len (c :: s) = c.utf8Size + utf8Len s := rfl
      obtain ⟨n, hn⟩ : ∃ n, c.utf8Size + utf8Len s = n + 1 :=
        Nat.exists_eq_succ_of_ne_zero (Nat.add_pos_left (Char.utf8Size_pos c) _).ne'
      rw [hlen, hn, List.cons_append, splitAtByte, ← hn, if_pos (Nat.le_add_right _ _),
        Nat.add_sub_cancel_left, ih]
      rfl

theorem sliceBytes_append (s t u : List Char) :
    sliceBytes (s ++ (t ++ u)) (utf8Len s) (utf8Len s + utf8Len t) = some t := by
  rw [sliceBytes, if_pos (Nat.le_add_right _ _), splitAtByte_append, Nat.add_sub_cancel_left]
  show (splitAtByte (utf8Len t) (t ++ u)).bind (fun r ↦ some r.1) = some t
  rw [splitAtByte_append]
  rfl

@[simp] theorem placed_append (start : Nat) (ls ms : List Lexeme) :
    placed start (ls ++ ms) = placed start ls ++ placed (start + utf8Len (textOf ls)) ms := by
  induction ls generalizing start with
  | nil => rfl
  | cons l ls ih => simp [placed, ih, Nat.add_assoc]

@[simp] theorem length_placed (start : Nat) (ls : List Lexeme) :
    (placed start ls).length = ls.length := by
  induction ls generalizing start with
  | nil => rfl
  | cons l ls ih => simp [placed, ih]

theorem getElem_placed {start k : Nat} {ls : List Lexeme} (h : k < (placed start ls).length)
    (h' : k < ls.length) :
    (placed start ls)[k] = ⟨ls[k].kind, ls[k].text, start + utf8Len (textOf (ls.take k))⟩ := by
  induction ls generalizing start k with
  | nil => cases h'
  | cons l ls ih =>
      cases k with
      | zero => rfl
      | succ k =>
          have hk : k < (placed (start + utf8Len l.text) ls).length := by simpa [placed] using h
          have htail := ih hk (by simpa using h')
          simpa [placed, Nat.add_assoc] using htail

theorem take_placed (start k : Nat) (ls : List Lexeme) :
    (placed start ls).take k = placed start (ls.take k) := by
  induction ls generalizing start k with
  | nil => simp [placed]
  | cons l ls ih =>
      cases k with
      | zero => rfl
      | succ k => exact congrArg _ (ih _ k)

theorem drop_placed (start k : Nat) (ls : List Lexeme) :
    (placed start ls).drop k = placed (start + utf8Len (textOf (ls.take k))) (ls.drop k) := by
  induction ls generalizing start k with
  | nil => simp [placed]
  | cons l ls ih =>
      cases k with
      | zero => rfl
      | succ k => simpa [placed, Nat.add_assoc] using ih (start + utf8Len l.text) k

/-- A token that starts later. -/
def SqlToken.shift (n : Nat) (t : SqlToken) : SqlToken := { t with start := n + t.start }

theorem placed_shift (n start : Nat) (ls : List Lexeme) :
    (placed start ls).map (SqlToken.shift n) = placed (n + start) ls := by
  induction ls generalizing start with
  | nil => rfl
  | cons l ls ih => simp [placed, ih, SqlToken.shift, Nat.add_assoc]

end FrankenSnowflake.SqlLexer
