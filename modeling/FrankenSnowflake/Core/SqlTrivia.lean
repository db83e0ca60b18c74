import FrankenSnowflake.Core.Guardrails
import FrankenSnowflake.Core.WriteIntent

/-!
# Comments and letter case

A comment behind a significant token, and the case of the letters of a word,
change the lexemes of a text in one place.  The neighbours allow it, so the
changed text lexes to the changed lexemes, and guards do not tell the two texts
apart.
-/

namespace FrankenSnowflake.SqlLexer

open Guardrails WriteIntent
open Foundation.Ascii (toLower_cases toLower_eq_iff)

/-! ## Letter case -/

section LetterCase

variable {c d : Char}

theorem eq_or_isAlpha_of_toLower (h : c.toLower = d.toLower) : c = d ∨ (c.isAlpha ∧ d.isAlpha) := by
  rcases toLower_cases c with hc | ⟨hc, hcl⟩
  · rcases toLower_cases d with hd | ⟨hd, hdl⟩
    · exact .inl (hc.symm.trans (h.trans hd))
    · refine .inr ⟨?_, hd⟩
      rw [← hc, h]
      exact hdl
  · rcases toLower_cases d with hd | ⟨hd, hdl⟩
    · refine .inr ⟨hc, ?_⟩
      rw [← hd, ← h]
      exact hcl
    · exact .inr ⟨hc, hd⟩

theorem ne_of_isAlpha (hc : c.isAlpha) (hd : d.isAlpha = false) : c ≠ d := by
  rintro rfl
  rw [hc] at hd
  cases hd

theorem isIdentifierByte_of_isAlpha (h : c.isAlpha) : isIdentifierByte c :=
  isIdentifierByte_of_start (by simp [h])

theorem isIdentifierByte_congr (h : c.toLower = d.toLower) :
    isIdentifierByte c = isIdentifierByte d := by
  rcases eq_or_isAlpha_of_toLower h with rfl | ⟨hc, hd⟩
  · rfl
  · rw [isIdentifierByte_of_isAlpha hc, isIdentifierByte_of_isAlpha hd]

theorem goesOn_of_isAlpha (hc : c.isAlpha) (hd : d.isAlpha) (kind : SqlTokenKind)
    (text : List Char) : goesOn kind text c = goesOn kind text d := by
  have hne (e : Char) (he : e.isAlpha = false) : decide (c = e) = decide (d = e) := by
    rw [decide_eq_false (ne_of_isAlpha hc he), decide_eq_false (ne_of_isAlpha hd he)]
  have halphanum : c.isAlphanum = d.isAlphanum := by simp [Char.isAlphanum, hc, hd]
  cases kind with
  | whitespace => simp (disch := decide) only [goesOn, isAsciiWhitespace, hne]
  | comment => simp (disch := decide) only [goesOn, ne_eq, decide_not, hne]
  | stringLiteral => exact hne '\'' rfl
  | quotedIdentifier => exact hne '"' rfl
  | dollarString | semicolon => rfl
  | var | word => simp (disch := decide) only [goesOn, isIdentifierByte, halphanum, hne]
  | number => simp (disch := decide) only [goesOn, halphanum, hne]
  | symbol => simp (disch := decide) only [goesOn, halphanum, hne]

/-- The case of a letter does not make it part of the token before it. -/
theorem goesOn_congr (h : c.toLower = d.toLower) (kind : SqlTokenKind) (text : List Char) :
    goesOn kind text c = goesOn kind text d := by
  rcases eq_or_isAlpha_of_toLower h with rfl | ⟨hc, hd⟩
  · rfl
  · exact goesOn_of_isAlpha hc hd kind text

end LetterCase

/-! ## Lexemes that are runs of characters -/

theorem Arm.eq_word {c : Char} {rest : List Char} {s : Scanned} (h : Arm c rest s)
    (hkind : s.kind = .word) :
    (c.isAlpha || c = '_') ∧ s = runOf .word isIdentifierByte (c :: rest) := by
  cases h with
  | word h => exact ⟨h, rfl⟩
  | whitespace | line | block | string | identifier | dollar | var | semicolon | number | symbol =>
      cases hkind

theorem Arm.eq_whitespace {c : Char} {rest : List Char} {s : Scanned} (h : Arm c rest s)
    (hkind : s.kind = .whitespace) :
    isAsciiWhitespace c ∧ s = runOf .whitespace isAsciiWhitespace (c :: rest) := by
  cases h with
  | whitespace h => exact ⟨h, rfl⟩
  | word | line | block | string | identifier | dollar | var | semicolon | number | symbol =>
      cases hkind

theorem runOf_all {p : Char → Bool} {s : List Char} (h : ∀ d ∈ s, p d) (kind : SqlTokenKind) :
    runOf kind p s = ⟨kind, s, [], false, false⟩ := by
  rw [runOf, List.takeWhile_eq_self_iff.mpr h, List.dropWhile_eq_nil_iff.mpr h]

/-- A lexeme that is all of a run. -/
theorem eq_of_runOf {p : Char → Bool} {c : Char} {rest : List Char} {kind : SqlTokenKind}
    {l : Lexeme} (hl : l.text = c :: rest)
    (h : (⟨l.kind, l.text, [], l.unterminated, l.ambiguous⟩ : Scanned) = runOf kind p (c :: rest)) :
    (∀ d ∈ c :: rest, p d) ∧ l = ⟨kind, c :: rest, false, false⟩ := by
  have hall : ∀ d ∈ c :: rest, p d :=
    List.dropWhile_eq_nil_iff.mp (congrArg Scanned.rest h).symm
  rw [runOf_all hall, Scanned.mk.injEq] at h
  obtain ⟨hkind, -, -, hunterminated, hambiguous⟩ := h
  obtain ⟨kind', text, unterminated, ambiguous⟩ := l
  subst hkind hl hunterminated hambiguous
  exact ⟨hall, rfl⟩

theorem stands_of_run {kind : SqlTokenKind} {p : Char → Bool} {c : Char} {rest : List Char}
    (hall : ∀ d ∈ c :: rest, p d) (harm : Arm c rest (runOf kind p (c :: rest))) :
    Lexeme.Stands ⟨kind, c :: rest, false, false⟩ := by
  rw [runOf_all hall] at harm
  exact ⟨c, rest, rfl, harm⟩

theorem isIdentifierByte_of_map_toLower {s t : List Char}
    (h : s.map Char.toLower = t.map Char.toLower) (ht : ∀ d ∈ t, isIdentifierByte d) :
    ∀ d ∈ s, isIdentifierByte d := by
  intro d hd
  have hmem : d.toLower ∈ t.map Char.toLower := h ▸ List.mem_map_of_mem hd
  obtain ⟨e, he, hlower⟩ := List.mem_map.mp hmem
  rw [isIdentifierByte_congr hlower.symm]
  exact ht e he

/-- A word is a run of identifier characters, and so is the word in another case. -/
theorem Lexeme.Stands.recase {l : Lexeme} (h : l.Stands) (hkind : l.kind = .word)
    {text : List Char} (htext : text.map Char.toLower = l.text.map Char.toLower) :
    Lexeme.Stands { l with text } := by
  obtain ⟨c, rest, hl, harm⟩ := h
  obtain ⟨hstart, hrun⟩ := harm.eq_word hkind
  obtain ⟨hall, rfl⟩ := eq_of_runOf hl hrun
  obtain ⟨d, tail, rfl, hd, htail⟩ := List.map_eq_cons_iff.mp htext
  have hfirst : d.isAlpha || d = '_' := by
    rcases eq_or_isAlpha_of_toLower hd with rfl | ⟨hd, -⟩
    · exact hstart
    · simp [hd]
  exact stands_of_run (isIdentifierByte_of_map_toLower htext hall) (.word hfirst)

/-- Whitespace goes on with a space in front. -/
theorem Lexeme.Stands.spaced {l : Lexeme} (h : l.Stands) (hkind : l.kind = .whitespace) :
    Lexeme.Stands { l with text := ' ' :: l.text } := by
  obtain ⟨c, rest, hl, harm⟩ := h
  obtain ⟨-, hrun⟩ := harm.eq_whitespace hkind
  obtain ⟨hall, rfl⟩ := eq_of_runOf hl hrun
  exact stands_of_run (List.forall_mem_cons.mpr ⟨rfl, hall⟩) (.whitespace rfl)

/-- Only whitespace begins with a blank. -/
theorem Lexeme.Stands.head_not_whitespace {l : Lexeme} (h : l.Stands)
    (hkind : l.kind ≠ .whitespace) : ∀ d ∈ l.text.head?, isAsciiWhitespace d = false := by
  obtain ⟨c, rest, hl, harm⟩ := h
  intro d hd
  rw [hl] at hd
  obtain rfl := Option.some.inj hd
  by_contra hspace
  have hwhitespace : Arm c rest _ := .whitespace (Bool.not_eq_false _ ▸ hspace)
  have hscan := scanToken_eq hwhitespace
  rw [scanToken_eq harm] at hscan
  exact hkind (congrArg Scanned.kind hscan)

/-! ## A comment behind a token -/

def blank : Lexeme := ⟨.whitespace, [' '], false, false⟩

def insertedComment : Lexeme := ⟨.comment, "/* x */".toList, false, false⟩

theorem stands_blank : blank.Stands := ⟨' ', [], rfl, .whitespace rfl⟩

theorem stands_insertedComment : insertedComment.Stands :=
  ⟨'/', "* x */".toList, rfl, .block rfl rfl⟩

/-- Lexemes with a space in front of them. -/
def spaced : List Lexeme → List Lexeme
  | [] => [blank]
  | l :: ls => if l.kind = .whitespace then { l with text := ' ' :: l.text } :: ls else blank :: l :: ls

theorem textOf_spaced (ls : List Lexeme) : textOf (spaced ls) = ' ' :: textOf ls := by
  unfold spaced
  split
  · rfl
  · split_ifs <;> rfl

theorem significantOf_spaced (ls : List Lexeme) : significantOf (spaced ls) = significantOf ls := by
  unfold spaced
  split
  · rfl
  · split_ifs with hkind
    · rw [significantOf_cons_trivia (by simp [hkind, isTriviaKind]),
        significantOf_cons_trivia (by simp [hkind, isTriviaKind])]
    · exact significantOf_cons_trivia rfl _

/-- Lexemes that a guard may trust. -/
def Reliable (ls : List Lexeme) : Prop := ∀ l ∈ ls, l.unterminated = false ∧ l.ambiguous = false

theorem reliable_lexemes_iff {sql : List Char} :
    Reliable (lexemes sql) ↔ (lex sql).isUnreliable = false := by
  rw [SqlLex.isUnreliable, lex_eq, Bool.or_eq_false_iff, List.any_eq_false, List.any_eq_false,
    Reliable, ← forall₂_and]
  simp

/-- Lexemes that are the lexing of their own text and that a guard may trust. -/
structure Sound (ls : List Lexeme) : Prop where
  stands : ∀ l ∈ ls, l.Stands
  chain : ls.IsChain Adjacent
  reliable : Reliable ls

theorem sound_lexemes {sql : List Char} (h : (lex sql).isUnreliable = false) :
    Sound (lexemes sql) :=
  ⟨stands_lexemes sql, isChain_lexemes sql, reliable_lexemes_iff.mpr h⟩

variable {l : Lexeme} {ls ms : List Lexeme}

theorem sound_append : Sound (ls ++ ms) ↔
    Sound ls ∧ Sound ms ∧ ∀ l ∈ ls.getLast?, ∀ m ∈ ms.head?, Adjacent l m := by
  constructor
  · rintro ⟨hstands, hchain, hreliable⟩
    obtain ⟨hleft, hright, hlink⟩ := List.isChain_append.mp hchain
    have hs := List.forall_mem_append.mp hstands
    have hr := List.forall_mem_append.mp hreliable
    exact ⟨⟨hs.1, hleft, hr.1⟩, ⟨hs.2, hright, hr.2⟩, hlink⟩
  · rintro ⟨hleft, hright, hlink⟩
    exact
      { stands := List.forall_mem_append.mpr ⟨hleft.stands, hright.stands⟩
        chain := List.isChain_append.mpr ⟨hleft.chain, hright.chain, hlink⟩
        reliable := List.forall_mem_append.mpr ⟨hleft.reliable, hright.reliable⟩ }

theorem sound_cons : Sound (l :: ms) ↔
    (l.Stands ∧ l.unterminated = false ∧ l.ambiguous = false) ∧ Sound ms ∧
      ∀ m ∈ ms.head?, Ends l.kind l.text m.text := by
  constructor
  · rintro ⟨hstands, hchain, hreliable⟩
    obtain ⟨hlink, htail⟩ := List.isChain_cons.mp hchain
    have hs := List.forall_mem_cons.mp hstands
    have hr := List.forall_mem_cons.mp hreliable
    exact ⟨⟨hs.1, hr.1⟩, ⟨hs.2, htail, hr.2⟩, fun m hm ↦ (hlink m hm).2⟩
  · rintro ⟨⟨hl, hclosed, hplain⟩, hms, hlink⟩
    exact
      { stands := List.forall_mem_cons.mpr ⟨hl, hms.stands⟩
        chain := List.isChain_cons.mpr ⟨fun m hm ↦ ⟨hclosed, hlink m hm⟩, hms.chain⟩
        reliable := List.forall_mem_cons.mpr ⟨⟨hclosed, hplain⟩, hms.reliable⟩ }

theorem sound_nil : Sound [] := ⟨List.forall_mem_nil _, .nil, List.forall_mem_nil _⟩

theorem Sound.spaced (h : Sound ms) : Sound (spaced ms) := by
  cases ms with
  | nil => exact sound_cons.mpr ⟨⟨stands_blank, rfl, rfl⟩, sound_nil, fun _ hm ↦ nomatch hm⟩
  | cons m ms =>
      obtain ⟨⟨hm, hclosed, hplain⟩, hms, hlink⟩ := sound_cons.mp h
      rw [SqlLexer.spaced]
      split_ifs with hkind
      · refine sound_cons.mpr ⟨⟨hm.spaced hkind, hclosed, hplain⟩, hms, fun n hn d hd ↦ ?_⟩
        have hends := hlink n hn d hd
        rw [hkind] at hends ⊢
        exact hends
      · refine sound_cons.mpr ⟨⟨stands_blank, rfl, rfl⟩, h, fun n hn ↦ ?_⟩
        obtain rfl := Option.some.inj hn
        exact hm.head_not_whitespace hkind

theorem head?_spaced {m : Lexeme} (h : m ∈ (spaced ms).head?) : m.text.head? = some ' ' := by
  unfold spaced at h
  split at h
  · obtain rfl := Option.some.inj h
    rfl
  · split_ifs at h
    · obtain rfl := Option.some.inj h
      rfl
    · obtain rfl := Option.some.inj h
      rfl

/-- A space ends every significant token. -/
theorem goesOn_space {kind : SqlTokenKind} (h : isTriviaKind kind = false) (text : List Char) :
    goesOn kind text ' ' = false := by
  cases kind with
  | whitespace | comment => cases h
  | stringLiteral | quotedIdentifier | dollarString | semicolon | var | word | number => rfl
  | symbol => simp [goesOn]

/-- A comment may stand behind every significant token. -/
theorem sound_insert (h : Sound (ls ++ l :: ms)) (hl : isTriviaKind l.kind = false) :
    Sound (ls ++ l :: blank :: insertedComment :: spaced ms) := by
  obtain ⟨hls, hms, hlink⟩ := sound_append.mp h
  obtain ⟨hone, hms, -⟩ := sound_cons.mp hms
  have hcomment : Sound (insertedComment :: spaced ms) := by
    refine sound_cons.mpr ⟨⟨stands_insertedComment, rfl, rfl⟩, hms.spaced, fun m hm d hd ↦ ?_⟩
    rw [head?_spaced hm] at hd
    obtain rfl := Option.some.inj hd
    decide
  have hblank : Sound (blank :: insertedComment :: spaced ms) := by
    refine sound_cons.mpr ⟨⟨stands_blank, rfl, rfl⟩, hcomment, fun m hm d hd ↦ ?_⟩
    obtain rfl := Option.some.inj hm
    obtain rfl := Option.some.inj hd
    rfl
  refine sound_append.mpr ⟨hls, sound_cons.mpr ⟨hone, hblank, fun m hm d hd ↦ ?_⟩, hlink⟩
  obtain rfl := Option.some.inj hm
  obtain rfl := Option.some.inj hd
  exact goesOn_space hl l.text

/-- The case of the letters of a word is free. -/
theorem sound_recase (h : Sound (ls ++ l :: ms)) (hl : l.kind = .word) {text : List Char}
    (htext : text.map Char.toLower = l.text.map Char.toLower) :
    Sound (ls ++ { l with text } :: ms) := by
  obtain ⟨hls, hms, hlink⟩ := sound_append.mp h
  obtain ⟨⟨hone, hflags⟩, hms, hnext⟩ := sound_cons.mp hms
  refine sound_append.mpr ⟨hls, sound_cons.mpr ⟨⟨hone.recase hl htext, hflags⟩, hms, ?_⟩, ?_⟩
  · intro m hm d hd
    have hends := hnext m hm d hd
    rw [hl] at hends ⊢
    exact hends
  · intro k hk m hm
    obtain rfl := Option.some.inj hm
    obtain ⟨hclosed, hends⟩ := hlink k hk l rfl
    refine ⟨hclosed, fun d hd ↦ ?_⟩
    obtain ⟨tail, rfl⟩ := List.head?_eq_some_iff.mp hd
    obtain ⟨e, rest, he, hlower, -⟩ := List.map_eq_cons_iff.mp htext.symm
    rw [goesOn_congr hlower.symm]
    exact hends e (by rw [he]; rfl)

/-! ## Tokens and their texts -/

def tokensText (ts : List SqlToken) : List Char := (ts.map SqlToken.text).flatten

theorem tokensText_placed (start : Nat) (ls : List Lexeme) :
    tokensText (placed start ls) = textOf ls := by
  induction ls generalizing start with
  | nil => rfl
  | cons l ls ih => exact congrArg (l.text ++ ·) (ih _)

theorem placed_eq_append {start : Nat} {ls : List Lexeme} {ts us : List SqlToken} {t : SqlToken}
    (h : placed start ls = ts ++ t :: us) :
    ∃ ks l ms, ls = ks ++ l :: ms ∧ tokensText ts = textOf ks ∧ tokensText us = textOf ms ∧
      l.kind = t.kind ∧ l.text = t.text := by
  induction ts generalizing start ls with
  | nil =>
      cases ls with
      | nil => cases h
      | cons l ls =>
          obtain ⟨rfl, rfl⟩ := List.cons.inj h
          exact ⟨[], l, ls, rfl, rfl, tokensText_placed _ ls, rfl, rfl⟩
  | cons s ts ih =>
      cases ls with
      | nil => cases h
      | cons k ls =>
          obtain ⟨rfl, htail⟩ := List.cons.inj h
          obtain ⟨ks, l, ms, rfl, hts, hus, hl⟩ := ih htail
          exact ⟨k :: ks, l, ms, rfl, congrArg (k.text ++ ·) hts, hus, hl⟩

/-! ## Respelling -/

/-- A comment is inserted behind a significant token, or the letters of a word
change their case. -/
inductive Respelled (sql : List Char) : List Char → Prop where
  | comment (ts : List SqlToken) (t : SqlToken) (us : List SqlToken)
      (htokens : (lex sql).tokens = ts ++ t :: us) (hsignificant : t.isTrivia = false) :
      Respelled sql (tokensText ts ++ (t.text ++ (" /* x */ ".toList ++ tokensText us)))
  | recase (ts : List SqlToken) (t : SqlToken) (us : List SqlToken) (text : List Char)
      (htokens : (lex sql).tokens = ts ++ t :: us) (hword : t.kind = .word)
      (hcase : text.map Char.toLower = t.text.map Char.toLower) :
      Respelled sql (tokensText ts ++ (text ++ tokensText us))

/-- Lexings that differ in the letters of one word. -/
theorem alike_of_recase {sql sql' : List Char} {text : List Char}
    (hsql : lexemes sql = ls ++ l :: ms) (hsql' : lexemes sql' = ls ++ { l with text } :: ms)
    (hword : l.kind = .word) (hcase : text.map Char.toLower = l.text.map Char.toLower) :
    (lex sql).Alike (lex sql') := by
  have hcontent := significantContent_lexemes sql
  have hcontent' := significantContent_lexemes sql'
  rw [hsql, significantOf_append, significantOf_cons (by simp [hword, isTriviaKind]),
    List.map_append, List.map_cons, significantContent] at hcontent
  rw [hsql', significantOf_append, significantOf_cons (by simp [hword, isTriviaKind]),
    List.map_append, List.map_cons, significantContent] at hcontent'
  obtain ⟨ts, us, hts, hleft, hright⟩ := List.map_eq_append_iff.mp hcontent
  obtain ⟨t, us, rfl, ht, hus⟩ := List.map_eq_cons_iff.mp hright
  obtain ⟨ts', us', hts', hleft', hright'⟩ := List.map_eq_append_iff.mp hcontent'
  obtain ⟨t', us', rfl, ht', hus'⟩ := List.map_eq_cons_iff.mp hright'
  have htext : t.text = l.text := congrArg Prod.snd ht
  have htext' : t'.text = text := congrArg Prod.snd ht'
  have hkind : t.kind = .word := (congrArg Prod.fst ht).trans hword
  have hkind' : t'.kind = .word := (congrArg Prod.fst ht').trans hword
  rw [SqlLex.Alike, hts, hts']
  refine List.rel_append (forall₂_alike_of_content (hleft.trans hleft'.symm)) (.cons ?_
    (forall₂_alike_of_content (hus.trans hus'.symm)))
  exact
    { kind := hkind.trans hkind'.symm
      lower := by rw [htext, htext', hcase]
      text := fun h ↦ absurd hkind h }

/-- Guards trust a respelled text, and do not tell it from the text itself. -/
theorem Respelled.alike {sql sql' : List Char} (h : Respelled sql sql')
    (hreliable : (lex sql).isUnreliable = false) :
    (lex sql').isUnreliable = false ∧ (lex sql).Alike (lex sql') := by
  have hsound := sound_lexemes hreliable
  cases h with
  | comment ts t us htokens hsignificant =>
      rw [lex_eq] at htokens
      obtain ⟨ls, l, ms, hls, hts, hus, hkind, htext⟩ := placed_eq_append htokens
      have hl : isTriviaKind l.kind = false := by
        rw [hkind]
        exact hsignificant
      rw [hls] at hsound
      have hinsert := sound_insert hsound hl
      have hlexemes := lexemes_textOf hinsert.stands hinsert.chain
      have hsql' : textOf (ls ++ l :: blank :: insertedComment :: spaced ms) =
          tokensText ts ++ (t.text ++ (" /* x */ ".toList ++ tokensText us)) := by
        rw [textOf_append, textOf_cons, textOf_cons, textOf_cons, textOf_spaced, hts, hus, htext]
        rfl
      rw [hsql'] at hlexemes
      refine ⟨reliable_lexemes_iff.mp (hlexemes ▸ hinsert.reliable), SqlLex.Alike.of_content ?_⟩
      have hcontent := significantContent_lexemes sql
      have hcontent' := significantContent_lexemes
        (tokensText ts ++ (t.text ++ (" /* x */ ".toList ++ tokensText us)))
      rw [hls] at hcontent
      rw [hlexemes, significantOf_append, significantOf_cons hl, significantOf_cons_trivia rfl,
        significantOf_cons_trivia rfl, significantOf_spaced, ← significantOf_cons hl,
        ← significantOf_append] at hcontent'
      exact hcontent.trans hcontent'.symm
  | recase ts t us text htokens hword hcase =>
      rw [lex_eq] at htokens
      obtain ⟨ls, l, ms, hls, hts, hus, hkind, htext⟩ := placed_eq_append htokens
      have hl : l.kind = .word := hkind.trans hword
      rw [← htext] at hcase
      rw [hls] at hsound
      have hrecase := sound_recase hsound hl hcase
      have hlexemes := lexemes_textOf hrecase.stands hrecase.chain
      rw [textOf_append, textOf_cons, ← hts, ← hus] at hlexemes
      exact ⟨reliable_lexemes_iff.mp (hlexemes ▸ hrecase.reliable),
        alike_of_recase hls hlexemes hl hcase⟩

/-! ## Verdicts -/

/-- The verdicts of the guards on a text. -/
structure SameVerdicts (sql sql' : List Char) : Prop where
  statementCount : (lex sql).statementCount = (lex sql').statementCount
  hasEmptyStatement : (lex sql).hasEmptyStatement = (lex sql').hasEmptyStatement
  isReadStatement : isReadStatement (lex sql) = isReadStatement (lex sql')
  readSideEffect : readSideEffect (lex sql) = readSideEffect (lex sql')
  classifySqlOperation : classifySqlOperation sql = classifySqlOperation sql'
  classifyWriteStatement : classifyWriteStatement sql = classifyWriteStatement sql'

theorem classifySqlOperation_congr {sql sql' : List Char} (h : (lex sql).Alike (lex sql'))
    (hreliable : (lex sql).isUnreliable = (lex sql').isUnreliable) :
    classifySqlOperation sql = classifySqlOperation sql' := by
  unfold Guardrails.classifySqlOperation
  simp only [hreliable, h.firstWord, h.isReadStatement]

theorem Alike.head?_iff {t t' : SqlToken} (h : Alike t t') {d : Char} (hd : d.isAlpha = false) :
    t.text.head? = some d ↔ t'.text.head? = some d := by
  have hlower (s : List Char) : (s.map Char.toLower).head? = some d ↔ s.head? = some d := by
    cases s with
    | nil => rfl
    | cons c s => simp [toLower_eq_iff hd]
  rw [← hlower, h.lower, hlower]

/-- The target of a `COPY INTO` is told by characters that are no letters, or by
the text of a string constant. -/
theorem copyIntoTargetKind_congr {sql sql' : List Char} (h : (lex sql).Alike (lex sql')) :
    copyIntoTargetKind sql = copyIntoTargetKind sql' := by
  unfold copyIntoTargetKind
  unfold SqlLex.Alike at h
  generalize (lex sql).significant = ts at h ⊢
  generalize (lex sql').significant = ts' at h ⊢
  cases h with
  | nil => rfl
  | cons hcopy h =>
      cases h with
      | nil => rfl
      | cons hinto h =>
          cases h with
          | nil => simp only [hcopy.word?, hinto.word?]
          | @cons t t' _ _ htarget _ =>
              have hstage := htarget.head?_iff (d := '@') rfl
              have hscheme : t.kind = .stringLiteral ∧ Redact.contains t.text "://".toList ↔
                  t'.kind = .stringLiteral ∧ Redact.contains t'.text "://".toList := by
                rw [htarget.kind]
                apply and_congr_right
                intro hkind
                rw [htarget.text (by rw [htarget.kind, hkind]; nofun)]
              simp only [hcopy.word?, hinto.word?, hstage, hscheme]

theorem classifyWriteStatement_congr {sql sql' : List Char} (h : (lex sql).Alike (lex sql')) :
    classifyWriteStatement sql = classifyWriteStatement sql' := by
  unfold WriteIntent.classifyWriteStatement
  rw [h.words, copyIntoTargetKind_congr h]

theorem sameVerdicts_of_alike {sql sql' : List Char} (h : (lex sql).Alike (lex sql'))
    (hreliable : (lex sql).isUnreliable = (lex sql').isUnreliable) : SameVerdicts sql sql' where
  statementCount := h.statementCount
  hasEmptyStatement := h.hasEmptyStatement
  isReadStatement := h.isReadStatement
  readSideEffect := h.readSideEffect
  classifySqlOperation := classifySqlOperation_congr h hreliable
  classifyWriteStatement := classifyWriteStatement_congr h

theorem Respelled.sameVerdicts {sql sql' : List Char} (h : Respelled sql sql')
    (hreliable : (lex sql).isUnreliable = false) : SameVerdicts sql sql' := by
  obtain ⟨hreliable', halike⟩ := h.alike hreliable
  exact sameVerdicts_of_alike halike (hreliable.trans hreliable'.symm)

theorem SameVerdicts.trans {sql sql' sql'' : List Char} (h : SameVerdicts sql sql')
    (h' : SameVerdicts sql' sql'') : SameVerdicts sql sql'' where
  statementCount := h.statementCount.trans h'.statementCount
  hasEmptyStatement := h.hasEmptyStatement.trans h'.hasEmptyStatement
  isReadStatement := h.isReadStatement.trans h'.isReadStatement
  readSideEffect := h.readSideEffect.trans h'.readSideEffect
  classifySqlOperation := h.classifySqlOperation.trans h'.classifySqlOperation
  classifyWriteStatement := h.classifyWriteStatement.trans h'.classifyWriteStatement

/-- Any number of comments and changes of case leave every verdict as it is. -/
theorem respellings_sameVerdicts (sql sql' : List Char) (hreliable : (lex sql).isUnreliable = false)
    (h : Relation.ReflTransGen Respelled sql sql') :
    (lex sql').isUnreliable = false ∧ SameVerdicts sql sql' := by
  induction h with
  | refl => exact ⟨hreliable, sameVerdicts_of_alike (.of_content rfl) rfl⟩
  | tail _ hstep ih =>
      obtain ⟨hreliable', hverdicts⟩ := ih
      exact ⟨(hstep.alike hreliable').1, hverdicts.trans (hstep.sameVerdicts hreliable')⟩

/-- A comment behind a verb, which is then written in capitals. -/
theorem respellings_sameVerdicts_drop :
    (lex "DROP /* x */  t".toList).isUnreliable = false ∧
      SameVerdicts "drop t".toList "DROP /* x */  t".toList := by
  apply respellings_sameVerdicts "drop t".toList "DROP /* x */  t".toList (by decide +kernel)
  have hcomment : Respelled "drop t".toList "drop /* x */  t".toList :=
    .comment [] ⟨.word, "drop".toList, 0⟩
      [⟨.whitespace, " ".toList, 4⟩, ⟨.word, "t".toList, 5⟩] (by decide +kernel) rfl
  have hrecase : Respelled "drop /* x */  t".toList "DROP /* x */  t".toList :=
    .recase [] ⟨.word, "drop".toList, 0⟩ (lex "drop /* x */  t".toList).tokens.tail "DROP".toList
      (by decide +kernel) rfl (by decide)
  exact (Relation.ReflTransGen.single hcomment).tail hrecase

end FrankenSnowflake.SqlLexer
