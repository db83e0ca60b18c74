import FrankenSnowflake.Core.SqlLexemes

/-!
# Statements and their lexemes

`split_statements` cuts a text at the byte offsets of tokens; a guard that lexes
such a statement by itself sees the lexemes of its segment again.
-/

namespace FrankenSnowflake.SqlLexer

/-! ## Significant lexemes -/

def Lexeme.content (l : Lexeme) : SqlTokenKind × List Char := (l.kind, l.text)

/-- Lexemes that affect meaning. -/
def significantOf (ls : List Lexeme) : List Lexeme := ls.filter fun l ↦ !isTriviaKind l.kind

@[simp] theorem significantOf_nil : significantOf [] = [] := rfl

@[simp] theorem significantOf_append (ls ms : List Lexeme) :
    significantOf (ls ++ ms) = significantOf ls ++ significantOf ms := List.filter_append ..

theorem significantOf_cons_trivia {l : Lexeme} (h : isTriviaKind l.kind) (ls : List Lexeme) :
    significantOf (l :: ls) = significantOf ls := by
  simp [significantOf, h]

theorem significantOf_cons {l : Lexeme} (h : isTriviaKind l.kind = false) (ls : List Lexeme) :
    significantOf (l :: ls) = l :: significantOf ls := by
  simp [significantOf, h]

theorem isTrivia_eq (t : SqlToken) : t.isTrivia = isTriviaKind t.kind := rfl

theorem content_placed (start : Nat) (ls : List Lexeme) :
    ((placed start ls).filter fun t ↦ !t.isTrivia).map SqlToken.content =
      (significantOf ls).map Lexeme.content := by
  induction ls generalizing start with
  | nil => rfl
  | cons l ls ih =>
      cases hl : isTriviaKind l.kind with
      | true =>
          rw [significantOf_cons_trivia hl, placed, List.filter_cons_of_neg (by simp [isTrivia_eq, hl])]
          exact ih _
      | false =>
          rw [significantOf_cons hl, placed, List.filter_cons_of_pos (by simp [isTrivia_eq, hl]),
            List.map_cons, List.map_cons, ih]
          rfl

theorem significantContent_lexemes (sql : List Char) :
    significantContent sql = (significantOf (lexemes sql)).map Lexeme.content := by
  rw [significantContent, SqlLex.significant, lex_eq]
  exact content_placed 0 (lexemes sql)

/-! ## Segments -/

/-- The lexemes of the statements: from the first to the last significant one of
each segment.  `seg` is the statement read so far, `gap` the trivia behind it. -/
def segments (seg gap : List Lexeme) : List Lexeme → List (List Lexeme)
  | [] => if seg.isEmpty then [] else [seg]
  | l :: ls =>
      if isTriviaKind l.kind then segments seg (gap ++ [l]) ls
      else if l.kind = .semicolon then
        (if seg.isEmpty then [] else [seg]) ++ segments [] [] ls
      else segments (if seg.isEmpty then [l] else seg ++ (gap ++ [l])) [] ls

/-- The span of the statement read so far, behind `pre`. -/
def spanOf (pre seg : List Lexeme) : Option (Nat × Nat) :=
  if seg.isEmpty then none
  else some (utf8Len (textOf pre), utf8Len (textOf pre) + utf8Len (textOf seg))

theorem spanOf_toList (pre seg rest : List Lexeme) :
    ((spanOf pre seg).toList).filterMap
        (fun s ↦ sliceBytes (textOf (pre ++ (seg ++ rest))) s.1 s.2) =
      (if seg.isEmpty then [] else [seg]).map textOf := by
  unfold spanOf
  split_ifs with hseg
  · rfl
  · have hslice := sliceBytes_append (textOf pre) (textOf seg) (textOf rest)
    simp [hslice]

theorem statementSpans_placed (pre seg gap ls : List Lexeme) :
    (statementSpans (spanOf pre seg)
        ((placed (utf8Len (textOf (pre ++ (seg ++ gap)))) ls).filter fun t ↦ !t.isTrivia)).filterMap
      (fun s ↦ sliceBytes (textOf (pre ++ (seg ++ (gap ++ ls)))) s.1 s.2) =
      (segments seg gap ls).map textOf := by
  induction ls generalizing pre seg gap with
  | nil => exact spanOf_toList pre seg (gap ++ [])
  | cons l ls ih =>
      have hnext : utf8Len (textOf (pre ++ (seg ++ gap))) + utf8Len l.text =
          utf8Len (textOf (pre ++ (seg ++ (gap ++ [l])))) := by simp [Nat.add_assoc]
      cases hl : isTriviaKind l.kind with
      | true =>
          have htail := ih pre seg (gap ++ [l])
          rw [placed, List.filter_cons_of_neg (by simp [isTrivia_eq, hl]), hnext, segments, if_pos hl]
          simpa using htail
      | false =>
          rw [placed, List.filter_cons_of_pos (by simp [isTrivia_eq, hl]), hnext, segments,
            if_neg (by simp [hl]), statementSpans]
          by_cases hsemi : l.kind = .semicolon
          · have htail := ih (pre ++ (seg ++ (gap ++ [l]))) [] []
            have hhead := spanOf_toList pre seg (gap ++ l :: ls)
            rw [if_pos hsemi, if_pos hsemi, List.filterMap_append, hhead, List.map_append]
            simpa [spanOf] using htail
          · rw [if_neg hsemi, if_neg hsemi]
            by_cases hseg : seg.isEmpty
            · have htail := ih (pre ++ gap) [l] []
              obtain rfl := List.isEmpty_iff.mp hseg
              simpa [spanOf, Nat.add_assoc] using htail
            · have htail := ih pre (seg ++ (gap ++ [l])) []
              simpa [spanOf, hseg, Nat.add_assoc] using htail

/-- The statements are the texts of the segments. -/
theorem splitStatements_eq (sql : List Char) :
    splitStatements sql = (segments [] [] (lexemes sql)).map textOf := by
  have hspans := statementSpans_placed [] [] [] (lexemes sql)
  simp only [List.nil_append, textOf_lexemes] at hspans
  rw [splitStatements, SqlLex.significant, lex_eq]
  exact hspans

theorem infix_of_mem_segments {s seg gap ls : List Lexeme} (h : s ∈ segments seg gap ls) :
    s <:+: seg ++ (gap ++ ls) := by
  induction ls generalizing seg gap with
  | nil =>
      rw [segments] at h
      split_ifs at h with hseg
      · cases h
      · rw [List.mem_singleton.mp h]
        exact (List.prefix_append seg _).isInfix
  | cons l ls ih =>
      have hsplit : seg ++ (gap ++ l :: ls) = (seg ++ (gap ++ [l])) ++ ls := by simp
      rw [segments] at h
      split_ifs at h with htrivia hsemi hseg hseg
      · simpa using ih h
      · rw [List.nil_append] at h
        rw [hsplit]
        exact (ih h).trans (List.suffix_append _ ls).isInfix
      · rcases List.mem_append.mp h with hs | hs
        · rw [List.mem_singleton.mp hs]
          exact (List.prefix_append seg _).isInfix
        · rw [hsplit]
          exact (ih hs).trans (List.suffix_append _ ls).isInfix
      · have hlast := ih h
        rw [hsplit]
        exact hlast.trans ⟨seg ++ gap, [], by simp⟩
      · simpa using ih h

/-- A statement lexes to its segment. -/
theorem lexemes_of_mem_segments {sql : List Char} {s : List Lexeme}
    (h : s ∈ segments [] [] (lexemes sql)) : lexemes (textOf s) = s :=
  lexemes_of_part (infix_of_mem_segments h)

/-! ## Statements as tokens -/

/-- The significant tokens of the statements; `seg` are those read so far. -/
def statementTokens (seg : List SqlToken) : List SqlToken → List (List SqlToken)
  | [] => if seg.isEmpty then [] else [seg]
  | t :: ts =>
      if t.kind = .semicolon then (if seg.isEmpty then [] else [seg]) ++ statementTokens [] ts
      else statementTokens (seg ++ [t]) ts

/-- Tokens that a text of their own lexes to, but for their places. -/
def LexesTo (sql : List Char) (ts : List SqlToken) : Prop :=
  (lex sql).significant.map SqlToken.content = ts.map SqlToken.content

theorem significantOf_eq_nil {ls : List Lexeme} (h : ∀ l ∈ ls, isTriviaKind l.kind) :
    significantOf ls = [] := by
  rw [significantOf, List.filter_eq_nil_iff]
  intro l hl
  simp [h l hl]

theorem forall₂_segments {seg gap ls : List Lexeme} {ts us : List SqlToken}
    (hseg : (significantOf seg).map Lexeme.content = ts.map SqlToken.content)
    (hgap : ∀ l ∈ gap, isTriviaKind l.kind) (hempty : seg = [] ↔ ts = [])
    (hls : (significantOf ls).map Lexeme.content = us.map SqlToken.content) :
    List.Forall₂ (fun s st ↦ (significantOf s).map Lexeme.content = st.map SqlToken.content)
      (segments seg gap ls) (statementTokens ts us) := by
  have hlast {seg : List Lexeme} {ts : List SqlToken}
      (hseg : (significantOf seg).map Lexeme.content = ts.map SqlToken.content)
      (hempty : seg = [] ↔ ts = []) :
      List.Forall₂ (fun s st ↦ (significantOf s).map Lexeme.content = st.map SqlToken.content)
        (if seg.isEmpty then [] else [seg]) (if ts.isEmpty then [] else [ts]) := by
    by_cases hnil : seg = []
    · rw [if_pos (by simp [hnil]), if_pos (by simp [hempty.mp hnil])]
      exact .nil
    · rw [if_neg (by simp [hnil]), if_neg (by simp [mt hempty.mpr hnil])]
      exact .cons hseg .nil
  induction ls generalizing seg gap ts us with
  | nil =>
      obtain rfl : us = [] := by simpa using hls.symm
      exact hlast hseg hempty
  | cons l ls ih =>
      cases hl : isTriviaKind l.kind with
      | true =>
          rw [significantOf_cons_trivia hl] at hls
          rw [segments, if_pos hl]
          exact ih hseg (by simpa [or_imp, forall_and, hl] using hgap) hempty hls
      | false =>
          rw [significantOf_cons hl, List.map_cons] at hls
          obtain ⟨t, us, rfl⟩ : ∃ t us', us = t :: us' := by
            cases us with
            | nil => cases hls
            | cons t us => exact ⟨t, us, rfl⟩
          obtain ⟨ht, hls⟩ := List.cons.inj hls
          have hkind : l.kind = t.kind := congrArg Prod.fst ht
          rw [segments, if_neg (by simp [hl]), statementTokens, hkind]
          by_cases hsemi : t.kind = .semicolon
          · rw [if_pos hsemi, if_pos hsemi]
            exact List.rel_append (hlast hseg hempty) (ih rfl (by simp) (by simp) hls)
          · rw [if_neg hsemi, if_neg hsemi]
            by_cases hnil : seg = []
            · subst hnil
              obtain rfl := hempty.mp rfl
              refine ih ?_ (by simp) (by simp) hls
              simpa [significantOf_cons hl] using ht
            · rw [if_neg (by simp [hnil])]
              refine ih ?_ (by simp) (by simp [hnil]) hls
              simp [significantOf_eq_nil hgap, significantOf_cons hl, hseg, ht]

/-- Statements lexed by themselves are the segments of the tokens of the text. -/
theorem splitStatements_lexesTo (sql : List Char) :
    List.Forall₂ LexesTo (splitStatements sql) (statementTokens [] (lex sql).significant) := by
  rw [splitStatements_eq, List.forall₂_map_left_iff]
  have htokens := significantContent_lexemes sql
  have hsegments := @forall₂_segments [] [] _ [] _ rfl (by simp) (by simp) htokens.symm
  refine List.Forall₂.imp ?_ ((List.forall₂_and_left _ _).mpr
      ⟨fun _ hs ↦ lexemes_of_mem_segments hs, hsegments⟩)
  rintro s st ⟨hlexemes, hcontent⟩
  have hown := significantContent_lexemes (textOf s)
  rw [hlexemes] at hown
  exact hown.trans hcontent

end FrankenSnowflake.SqlLexer
